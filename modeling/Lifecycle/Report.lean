import Lifecycle.Generator

namespace Lifecycle

-- What is told about a callback that breaks a rule.
structure Diagnostic where
  id : CallbackId
  -- The qualified name of the class that declares it.
  className : String
  callbackName : String
  location : Option Location
  violation : Violation
deriving DecidableEq

namespace Diagnostic

-- What is told about a rejected callback.
def ofRejection (r : Rejection) : Diagnostic :=
  { id := r.callback.id, className := r.callback.declaringClass.qualifiedName
    callbackName := r.callback.name, location := r.callback.location, violation := r.violation }

-- The text of a diagnostic: its place, if it is known, or the name of the callback.
def text (d : Diagnostic) : String :=
  let place := match d.location with
    | some l => l.text
    | none => ClassPath.qualify d.className d.callbackName
  place ++ ": error: " ++ d.violation.message

end Diagnostic

-- What comes of one class.
inductive Outcome where
  -- The class has no callbacks.
  | skipped
  | failed (diagnostics : List Diagnostic)
  | generated (unit : SourceUnit)
deriving DecidableEq

namespace Outcome

def name : Outcome → String
  | .skipped => "Skipped"
  | .failed _ => "Failed"
  | .generated _ => "Generated"

-- Whether no callback breaks a rule.
def isSuccess : Outcome → Bool
  | .failed _ => false
  | _ => true

end Outcome

structure Report where
  diagnostics : List Diagnostic := []
  units : List SourceUnit := []
  failedClasses : List String := []
deriving DecidableEq

namespace Report

-- Whether no callback of any class breaks a rule.
def isSuccess (r : Report) : Bool := r.diagnostics.isEmpty

-- Adds the outcome of one more class.
def record (r : Report) (subject : ClassPath) : Outcome → Report
  | .skipped => r
  | .failed diagnostics =>
    { r with diagnostics := r.diagnostics ++ diagnostics
             failedClasses := r.failedClasses ++ [subject.qualifiedName] }
  | .generated unit => { r with units := r.units ++ [unit] }

-- The place of the source text of a class among the units.
def unitIndex? (r : Report) (subject : ClassPath) (g : Generator) : Option Nat :=
  r.units.findIdx? fun u => u.name == g.adapterName subject && u.moduleText == subject.moduleText

-- The source text of a class.
def unitFor? (r : Report) (subject : ClassPath) (g : Generator) : Option SourceUnit :=
  r.units.find? fun u => u.name == g.adapterName subject && u.moduleText == subject.moduleText

end Report

structure Processor where
  rules : Rules
  generator : Generator

namespace Processor

def ofSettings (s : Settings) : Except GenerationError Processor := do
  return { rules := Rules.ofSettings s, generator := ← Generator.ofSettings s }

-- Judges callbacks: the diagnostics for rejected ones and the accepted ones, in order.
def judgeAll (r : Rules) (callbacks : List Callback) : List Diagnostic × List Acceptance :=
  let judged := callbacks.map r.judge
  (judged.filterMap fun | .inl rejection => some (.ofRejection rejection) | .inr _ => none,
    judged.filterMap fun | .inl _ => none | .inr acceptance => some acceptance)

def outcome (p : Processor) (d : Declaration) : Except GenerationError Outcome := do
  let kept := d.kept
  if kept.isEmpty then return .skipped
  let (diagnostics, accepted) := judgeAll p.rules kept
  if !diagnostics.isEmpty then return .failed diagnostics
  match (Registry.ofAcceptances d.subject accepted).toEntry with
  | some entry => return .generated (← p.generator.unit entry)
  | none => return .skipped

-- The registered callbacks of a class, if there are some and none breaks a rule.
def registered? (p : Processor) (d : Declaration) : Option Entry :=
  let (diagnostics, accepted) := judgeAll p.rules d.kept
  if diagnostics.isEmpty then (Registry.ofAcceptances d.subject accepted).toEntry else none

-- The adapter that the source text of a class is the code of.
def adapter? (p : Processor) (d : Declaration) : Option Adapter := do
  (p.generator.adapter (← p.registered? d)).toOption

-- What comes of some classes. The first one that cannot be generated ends the run.
def report (p : Processor) (declarations : List Declaration) : Except GenerationError Report :=
  declarations.foldlM (fun r d => return r.record d.subject (← p.outcome d)) {}

end Processor

end Lifecycle
