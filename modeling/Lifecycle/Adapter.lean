import Lifecycle.CallLog
import Lifecycle.Event
import Lifecycle.Grammar.Path

namespace Lifecycle

-- What a call goes to.
inductive Callee where
  -- The object that the adapter serves.
  | receiver
  -- A class, by the identifiers of its path.
  | path (segments : List String)
deriving DecidableEq, Repr

structure Call where
  callee : Callee
  -- The identifier of the callback.
  method : String
  kind : CallKind
  -- Whether it has a result that is thrown away.
  hasResult : Bool
  -- The name under which a log knows the call.
  key : Option String
deriving DecidableEq, Repr

-- What a call passes on.
inductive CallArgument where
  | owner
  | event (event : Event)
deriving DecidableEq, Repr

-- The arguments of a call when an event is dispatched.
def Call.arguments (c : Call) (event : Event) : List CallArgument :=
  match c.kind with
  | .noArgs => []
  | .owner => [.owner]
  | .ownerEvent => [.owner, .event event]

-- The code that calls the callbacks of one class, as a value that can be run and printed: an arm for
-- each event that is named by some callback, and the calls behind the arms that every event makes. A
-- call with a key asks the log, if there is one, whether to go on.
structure Adapter where
  -- The identifier of the adapter type.
  name : String
  -- The identifier of the class.
  subject : String
  doc : String
  runtime : Path
  -- Whether its calls ask a log.
  asksLog : Bool
  arms : List (Event × List Call)
  always : List Call

-- Makes calls in turn, each unless a log refuses it.
def Call.run : List Call → Option CallLog → List Call × Option CallLog
  | [], log => ([], log)
  | c :: rest, none => (c :: (run rest none).1, none)
  | c :: rest, some log =>
    match c.key with
    | none => let (made, log') := run rest (some log); (c :: made, log')
    | some key =>
      let (approved, log) := log.approve key c.kind
      let (made, log') := run rest (some log)
      (if approved then c :: made else made, log')

namespace Adapter

def armFor (a : Adapter) (event : Event) : List Call :=
  match a.arms.find? (·.1 = event) with
  | some (_, calls) => calls
  | none => []

-- All calls for an event in their order, whatever a log says.
def callsFor (a : Adapter) (event : Event) : List Call :=
  a.armFor event ++ a.always

-- Runs the adapter for an event: the calls that are made, and the log afterwards.
def run (a : Adapter) (event : Event) (log : Option CallLog) : List Call × Option CallLog :=
  Call.run (a.callsFor event) log

-- All calls in the code of the adapter.
def allCalls (a : Adapter) : List Call :=
  a.arms.flatMap (·.2) ++ a.always

-- Whether some call passes the owner.
def usesOwner (a : Adapter) : Bool :=
  a.allCalls.any (·.kind.passesOwner)

-- Whether the event is looked at or passed on.
def usesEvent (a : Adapter) : Bool :=
  !a.arms.isEmpty || a.allCalls.any (·.kind.passesEvent)

end Adapter

end Lifecycle
