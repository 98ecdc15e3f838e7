namespace Lifecycle

-- A lifecycle event. The last one stands for any event and is never dispatched itself.
inductive Event where
  | onCreate
  | onStart
  | onResume
  | onPause
  | onStop
  | onDestroy
  | onAny
deriving DecidableEq, Repr

-- A state of a lifecycle owner.
inductive State where
  | destroyed
  | initialized
  | created
  | started
  | resumed
deriving DecidableEq, Repr

namespace Event

-- All events, in lifecycle order.
def all : List Event :=
  [.onCreate, .onStart, .onResume, .onPause, .onStop, .onDestroy, .onAny]

-- The events that are dispatched, in lifecycle order.
def dispatchable : List Event :=
  [.onCreate, .onStart, .onResume, .onPause, .onStop, .onDestroy]

-- The name of an event in code.
def name : Event → String
  | .onCreate => "OnCreate"
  | .onStart => "OnStart"
  | .onResume => "OnResume"
  | .onPause => "OnPause"
  | .onStop => "OnStop"
  | .onDestroy => "OnDestroy"
  | .onAny => "OnAny"

def ofName? (name : String) : Option Event :=
  all.find? (·.name == name)

-- How an event is shown to a user.
def label : Event → String
  | .onCreate => "ON_CREATE"
  | .onStart => "ON_START"
  | .onResume => "ON_RESUME"
  | .onPause => "ON_PAUSE"
  | .onStop => "ON_STOP"
  | .onDestroy => "ON_DESTROY"
  | .onAny => "ON_ANY"

-- Whether the event stands for any event.
def isAny (e : Event) : Bool := e == .onAny

-- The place of an event in lifecycle order.
def rank : Event → Nat
  | .onCreate => 0
  | .onStart => 1
  | .onResume => 2
  | .onPause => 3
  | .onStop => 4
  | .onDestroy => 5
  | .onAny => 6

-- The state of the owner after an event.
def targetState? : Event → Option State
  | .onCreate | .onStop => some .created
  | .onStart | .onPause => some .started
  | .onResume => some .resumed
  | .onDestroy => some .destroyed
  | .onAny => none

theorem mem_all (e : Event) : e ∈ all := by
  cases e <;> decide

@[simp] theorem ofName?_name (e : Event) : ofName? e.name = some e := by
  cases e <;> decide

-- An event is dispatched unless it stands for any event.
theorem mem_dispatchable_iff (e : Event) : e ∈ dispatchable ↔ e.isAny = false := by
  cases e <;> decide

end Event

namespace State

-- The state of an owner that has seen no event.
instance : Inhabited State := ⟨.initialized⟩

def name : State → String
  | .destroyed => "Destroyed"
  | .initialized => "Initialized"
  | .created => "Created"
  | .started => "Started"
  | .resumed => "Resumed"

-- All states, from the lowest on.
def all : List State :=
  [.destroyed, .initialized, .created, .started, .resumed]

def ofName? (name : String) : Option State :=
  all.find? (·.name == name)

-- The place of a state in their order.
def rank : State → Nat
  | .destroyed => 0
  | .initialized => 1
  | .created => 2
  | .started => 3
  | .resumed => 4

instance : Ord State := ⟨fun a b => compare a.rank b.rank⟩

-- Whether a state is at least as high as another.
def isAtLeast (a b : State) : Bool := b.rank ≤ a.rank

@[simp] theorem ofName?_name (s : State) : ofName? s.name = some s := by
  cases s <;> decide

end State

end Lifecycle
