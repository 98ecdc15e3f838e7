import Lifecycle.Demo.Observers
import Lifecycle.Dispatch

namespace Lifecycle.Demo

structure Instance where
  number : Nat
  className : String
  adapter : Adapter

-- What a callback on an object writes about an argument.
def argumentText (state : State) : CallArgument → String
  | .owner => ":" ++ state.name
  | .event event => ":" ++ event.label

-- The line that a call writes. A callback without an object tells no state.
def Instance.line (i : Instance) (event : Event) (state : State) (c : Call) : String :=
  let arguments := c.arguments event
  match c.callee with
  | .receiver => toString i.number ++ "." ++ c.method ++ String.join (arguments.map (argumentText state))
  | .path _ =>
    let told := arguments.filter (· ≠ .owner)
    i.className ++ "::" ++ c.method ++ String.join (told.map (argumentText state))

-- An event, and the state of the owner that it comes from.
structure Occurrence where
  event : Event
  state : State := default

-- A step of a session. Observers and logs are given by their numbers.
inductive Step where
  | dispatch (observer : Nat) (what : Occurrence)
  | dispatchAll (observers : List Nat) (what : Occurrence)
  -- Runs an adapter directly, with a log or without.
  | run (observer : Nat) (what : Occurrence) (log : Option Nat)
  | approve (log : Nat) (name : String) (kind : CallKind)
  | reset (log : Nat)

-- The observers and logs of a session.
structure Session where
  observers : List Instance
  logs : List CallLog

-- What a step shows: the answer of a log and the lines that were written.
structure Effect where
  answer : Option Bool := none
  lines : List String := []

namespace Session

-- A session with observers of these classes and so many empty logs.
def start (classNames : List String) (logs : Nat) : Session :=
  let observers := classNames.mapIdx fun number className => do
    let c ← classes.find? (·.name == className)
    return { number, className, adapter := ← c.adapter? }
  { observers := observers.filterMap id, logs := List.replicate logs {} }

def observer? (s : Session) (number : Nat) : Option Instance :=
  s.observers.find? (·.number == number)

-- The lines of an observer's calls.
def linesOf (what : Occurrence) (i : Instance) (calls : List Call) : List String :=
  calls.map (i.line what.event what.state)

def step (s : Session) : Step → Effect × Session
  | .dispatch observer what =>
    match s.observer? observer with
    | none => ({}, s)
    | some i => ({ lines := linesOf what i (Lifecycle.dispatch i.adapter what.event) }, s)
  | .dispatchAll observers what =>
    let chosen := observers.filterMap s.observer?
    let calls := Lifecycle.dispatchAll (chosen.map (·.adapter)) what.event
    ({ lines := (chosen.zip calls).flatMap fun (i, cs) => linesOf what i cs }, s)
  | .run observer what log =>
    match s.observer? observer with
    | none => ({}, s)
    | some i =>
      let (calls, after) := i.adapter.run what.event (log.bind (s.logs[·]?))
      let logs := match log, after with
        | some n, some l => s.logs.set n l
        | _, _ => s.logs
      ({ lines := linesOf what i calls }, { s with logs })
  | .approve log name kind =>
    match s.logs[log]? with
    | none => ({}, s)
    | some l =>
      let (approved, after) := l.approve name kind
      ({ answer := some approved }, { s with logs := s.logs.set log after })
  | .reset log => ({}, { s with logs := s.logs.set log {} })

-- Makes steps in turn: what each shows, and the logs after it.
def run (s : Session) : List Step → List (Effect × List CallLog)
  | [] => []
  | step :: rest =>
    let (effect, after) := s.step step
    (effect, after.logs) :: after.run rest

end Session

end Lifecycle.Demo
