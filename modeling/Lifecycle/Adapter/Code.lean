import Lifecycle.Adapter
import Lifecycle.Token.Writing

namespace Lifecycle

open Code

def CallKind.arguments : CallKind → List Tree
  | .noArgs => []
  | .owner => word "owner"
  | .ownerEvent => word "owner" ++ op1 ',' ++ word "event"

-- The code in front of the name of the callback.
def Callee.tokens : Callee → List Tree
  | .receiver => word "self" ++ op1 '.' ++ word "receiver" ++ op1 '.'
  | .path segments => joined segments ++ colons

namespace Call

def statement (c : Call) : List Tree :=
  (if c.hasResult then word "let" ++ word "_" ++ op1 '=' else []) ++
    c.callee.tokens ++ word c.method ++ parens c.kind.arguments ++ op1 ';'

-- The question whether the log approves a call.
def question (runtime : Path) (key : String) (kind : CallKind) : List Tree :=
  word "logger" ++ op1 '.' ++ word "as_deref_mut" ++ parens [] ++ op1 '.' ++ word "is_none_or" ++
    parens (op1 '|' ++ word "logger" ++ op1 '|' ++ word "logger" ++ op1 '.' ++
      word "approve_call" ++
        parens (quoted key ++ op1 ',' ++ runtime.tokens ++ colons ++ word "CallKind" ++ colons ++
          word kind.name))

-- The call, after the question to the log if it asks one.
def tokens (runtime : Path) (c : Call) : List Tree :=
  match c.key with
  | none => c.statement
  | some key => word "if" ++ question runtime key c.kind ++ braces c.statement

-- The code of calls in their order.
def listTokens (runtime : Path) (calls : List Call) : List Tree :=
  calls.flatMap (tokens runtime)

end Call

namespace Adapter

def runtimeName (a : Adapter) (name : String) : List Tree :=
  a.runtime.tokens ++ colons ++ word name

def armTokens (a : Adapter) (event : Event) (calls : List Call) : List Tree :=
  a.runtimeName "LifecycleEvent" ++ colons ++ word event.name ++ op2 '=' '>' ++
    braces (Call.listTokens a.runtime calls)

-- The choice by event, unless no event is named.
def matchTokens (a : Adapter) : List Tree :=
  if a.arms.isEmpty then []
  else
    word "match" ++ word "event" ++
      braces (a.arms.flatMap (fun (event, calls) => a.armTokens event calls) ++
        word "_" ++ op2 '=' '>' ++ braces [])

-- The structure that borrows the object.
def structTokens (a : Adapter) : List Tree :=
  op1 '#' ++ brackets (word "doc" ++ op1 '=' ++ quoted a.doc) ++
    word "pub" ++ word "struct" ++ word a.name ++ angled "r" ++
    braces (word "receiver" ++ op1 ':' ++ op1 '&' ++ lifetime "r" ++ word "mut" ++
      word a.subject ++ op1 ',')

-- The parameters of the function that makes the calls.
def parameters (a : Adapter) : List Tree :=
  op1 '&' ++ word "mut" ++ word "self" ++ op1 ',' ++
    word "owner" ++ op1 ':' ++ op1 '&' ++ word "dyn" ++ a.runtimeName "LifecycleOwner" ++ op1 ',' ++
    word "event" ++ op1 ':' ++ a.runtimeName "LifecycleEvent" ++ op1 ',' ++
    (if a.asksLog then word "mut" else []) ++ word "logger" ++ op1 ':' ++ colons ++
    joined ["core", "option", "Option"] ++ op1 '<' ++ op1 '&' ++ word "mut" ++
    a.runtimeName "MethodCallsLogger" ++ op1 '>' ++ op1 ','

-- The body of the function that makes the calls.
def bodyTokens (a : Adapter) : List Tree :=
  (if a.usesOwner then [] else discard "owner") ++ (if a.usesEvent then [] else discard "event") ++
    (if a.asksLog then [] else discard "logger") ++ a.matchTokens ++
    Call.listTokens a.runtime a.always

-- The implementation that makes the calls.
def dispatchTokens (a : Adapter) : List Tree :=
  word "impl" ++ a.runtimeName "GeneratedAdapter" ++ word "for" ++ word a.name ++ angled "_" ++
    braces (word "fn" ++ word "call_methods" ++ parens a.parameters ++ braces a.bodyTokens)

-- The implementation that hands the adapter out.
def observerTokens (a : Adapter) : List Tree :=
  word "impl" ++ a.runtimeName "LifecycleObserver" ++ word "for" ++ word a.subject ++
    braces (word "type" ++ word "Adapter" ++ angled "r" ++ op1 '=' ++ word a.name ++ angled "r" ++
        word "where" ++ word "Self" ++ op1 ':' ++ lifetime "r" ++ op1 ';' ++
      word "fn" ++ word "lifecycle_adapter" ++ parens (op1 '&' ++ word "mut" ++ word "self") ++
        op2 '-' '>' ++ word "Self" ++ colons ++ word "Adapter" ++ angled "_" ++
        braces (word a.name ++ braces (word "receiver" ++ op1 ':' ++ word "self")))

def tokens (a : Adapter) : List Tree :=
  a.structTokens ++ a.dispatchTokens ++ a.observerTokens

end Adapter

end Lifecycle
