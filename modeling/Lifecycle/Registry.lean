import Lifecycle.Rules

namespace Lifecycle

abbrev Groups := List (Event × List Callback)

namespace Groups

-- Adds a callback to the group of an event, which is opened if there is none.
def add (groups : Groups) (e : Event) (c : Callback) : Groups :=
  match groups with
  | [] => [(e, [c])]
  | (e', cs) :: rest => if e' = e then (e', cs ++ [c]) :: rest else (e', cs) :: add rest e c

def callbacksFor (groups : Groups) (e : Event) : List Callback :=
  match groups with
  | [] => []
  | (e', cs) :: rest => if e' = e then cs else callbacksFor rest e

def events (groups : Groups) : List Event :=
  groups.map (·.1)

end Groups

-- The callbacks of a class that have been registered so far.
structure Registry where
  subject : ClassPath
  groups : Groups := []

-- The registered callbacks of a class that has some.
structure Entry where
  subject : ClassPath
  groups : Groups

namespace Registry

-- Registers a callback for its events.
def register (r : Registry) (a : Acceptance) : Registry :=
  { r with groups := a.events.foldl (fun groups e => groups.add e a.callback) r.groups }

-- The registry of some accepted callbacks.
def ofAcceptances (subject : ClassPath) (acceptances : List Acceptance) : Registry :=
  acceptances.foldl register { subject }

def isEmpty (r : Registry) : Bool := r.groups.isEmpty

-- What has been registered, if anything has.
def toEntry (r : Registry) : Option Entry :=
  if r.isEmpty then none else some { subject := r.subject, groups := r.groups }

end Registry

namespace Entry

-- The callbacks that are bound to an event by its name.
def callbacksFor (e : Entry) (event : Event) : List Callback :=
  e.groups.callbacksFor event

-- The events other than the one for any event that have callbacks.
def namedEvents (e : Entry) : List Event :=
  e.groups.events.filter (!·.isAny)

-- The callbacks that are bound to any event.
def anyCallbacks (e : Entry) : List Callback :=
  e.callbacksFor .onAny

-- All bindings, group by group.
def bindings (e : Entry) : List (Event × Callback) :=
  e.groups.flatMap fun (event, cs) => cs.map (event, ·)

def registrationCount (e : Entry) : Nat :=
  e.groups.foldl (fun count group => count + group.2.length) 0

end Entry

end Lifecycle
