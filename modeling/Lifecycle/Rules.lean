import Lifecycle.Declaration
import Lifecycle.Settings

namespace Lifecycle

inductive Violation where
  | tooManyArguments
  | invalidFirstArgument
  | invalidSecondArgument
deriving DecidableEq, Repr

namespace Violation

-- All rules, in the order in which they are tried.
def all : List Violation := [.tooManyArguments, .invalidFirstArgument, .invalidSecondArgument]

-- The name of a broken rule.
def name : Violation → String
  | .tooManyArguments => "TooManyArguments"
  | .invalidFirstArgument => "InvalidFirstArgument"
  | .invalidSecondArgument => "InvalidSecondArgument"

-- The broken rule of a name.
def ofName? (name : String) : Option Violation :=
  all.find? (·.name == name)

-- What is told about a broken rule. It never names the callback.
def message : Violation → String
  | .tooManyArguments => "callback method cannot have more than 2 parameters"
  | .invalidFirstArgument =>
    "1st argument of a callback method must be a LifecycleOwner which represents the source of the event"
  | .invalidSecondArgument =>
    "2nd argument of a callback method must be LifecycleEvent and represent the current event"

end Violation

-- The items of a list without repetitions, at the place of their first occurrence.
def distinct {α : Type} [DecidableEq α] : List α → List α
  | [] => []
  | a :: rest => a :: (distinct rest).filter (· ≠ a)

@[simp] theorem mem_distinct {α : Type} [DecidableEq α] {a : α} {as : List α} :
    a ∈ distinct as ↔ a ∈ as := by
  induction as with
  | nil => simp [distinct]
  | cons b rest ih =>
    by_cases h : a = b <;> simp [distinct, ih, h]

theorem nodup_distinct {α : Type} [DecidableEq α] (as : List α) : (distinct as).Nodup := by
  induction as with
  | nil => simp [distinct]
  | cons b rest ih => exact List.nodup_cons.2 ⟨by simp, ih.filter _⟩

-- The greatest number of arguments of a callback.
def maxArity : Nat := 2

-- The types that the arguments of callbacks must have.
structure Rules where
  ownerType : String
  eventType : String
deriving DecidableEq

namespace Rules

def ofSettings (s : Settings) : Rules :=
  { ownerType := s.ownerType, eventType := s.eventType }

-- The first rule that some parameters break.
def violation? (r : Rules) (params : List NamedType) : Option Violation :=
  if maxArity < params.length then some .tooManyArguments
  else
    match params with
    | [] => none
    | first :: rest =>
      if !first.isAssignableTo r.ownerType then some .invalidFirstArgument
      else
        match rest with
        | [] => none
        | second :: _ => if second.name ≠ r.eventType then some .invalidSecondArgument else none

end Rules

-- The events that a list of declared ones binds a callback to. No event means any event, and any
-- event includes the others.
def boundEvents (declared : List Event) : List Event :=
  if declared.isEmpty ∨ Event.onAny ∈ declared then [.onAny] else distinct declared

theorem nodup_boundEvents (declared : List Event) : (boundEvents declared).Nodup := by
  unfold boundEvents
  split
  · simp
  · exact nodup_distinct declared

theorem boundEvents_ne_nil (declared : List Event) : boundEvents declared ≠ [] := by
  unfold boundEvents
  split
  · simp
  · cases declared <;> simp_all [distinct]

-- A callback that keeps the rules, and the events it is bound to.
structure Acceptance where
  callback : Callback
  events : List Event
  nodup : events.Nodup

-- The acceptance of a callback for the events it is bound to.
def Acceptance.ofCallback (c : Callback) : Acceptance :=
  { callback := c, events := boundEvents c.events, nodup := nodup_boundEvents _ }

-- A callback that breaks a rule.
structure Rejection where
  callback : Callback
  violation : Violation

namespace Rules

-- Judges a callback by the rules.
def judge (r : Rules) (c : Callback) : Rejection ⊕ Acceptance :=
  match r.violation? c.params with
  | some violation => .inl { callback := c, violation }
  | none => .inr (.ofCallback c)

end Rules

end Lifecycle
