import Lifecycle.Observer.Extract
import Lifecycle.Observer.Options
import Lifecycle.Report
import Lifecycle.Token.Writing

namespace Lifecycle

open Code

-- Code that makes the compiler tell a message.
def compileError (message : String) : List Tree :=
  colons ++ joined ["core", "compile_error"] ++ op1 '!' ++ braces (quoted message)

-- What follows the block: the adapter's code, or what is wrong.
def ObserverOptions.generated (o : ObserverOptions) (runtimePath : String) (e : Extraction) :
    Except (List String) (List Tree) :=
  if !e.faults.isEmpty then .error (e.faults.map (·.message))
  else
    match e.declaration with
    | none => .ok []
    | some d =>
      match Processor.ofSettings (o.settings runtimePath) with
      | .error err => .error [err.message]
      | .ok processor =>
        match processor.outcome d with
        | .error err => .error [err.message]
        | .ok .skipped => .ok []
        | .ok (.failed diagnostics) => .error (diagnostics.map (·.violation.message))
        | .ok (.generated unit) =>
          match Tree.read? unit.body.toList with
          | some trees => .ok trees
          | none => .error ["generated adapter does not lex: " ++ Complaint.noTokens.message]

-- The code that an observer attribute with these arguments makes of an item; `runtimePath` is
-- where the runtime is if they do not say it.
def expand (runtimePath : String) (arguments item : List Tree) : List Tree :=
  match ObserverOptions.ofTrees arguments with
  | .error faults => faults.flatMap (fun f => compileError f.message) ++ item
  | .ok options =>
    match Grammar.parseTrees Grammar.implBlock item {} with
    | .error e => compileError e.message
    | .ok block =>
      let extraction := block.extract
      match options.generated runtimePath extraction with
      | .ok code => extraction.cleaned.tokens ++ code
      | .error messages => extraction.cleaned.tokens ++ messages.flatMap compileError

end Lifecycle
