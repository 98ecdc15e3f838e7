namespace Lifecycle

-- A kind of call by its arguments: the first so many of owner and event.
inductive CallKind where
  | noArgs
  | owner
  | ownerEvent
deriving DecidableEq, Repr

namespace CallKind

def all : List CallKind := [.noArgs, .owner, .ownerEvent]

-- The kind of call that a number of arguments needs.
def ofArity : Nat → CallKind
  | 0 => .noArgs
  | 1 => .owner
  | _ => .ownerEvent

-- Up to two arguments the kind tells how many they are.
theorem ofArity_eq_iff {m n : Nat} (hm : m ≤ 2) (hn : n ≤ 2) : ofArity m = ofArity n ↔ m = n := by
  have hcases : ∀ k ≤ 2, k = 0 ∨ k = 1 ∨ k = 2 := by omega
  rcases hcases m hm with rfl | rfl | rfl <;> rcases hcases n hn with rfl | rfl | rfl <;> decide

-- The name of a kind in code.
def name : CallKind → String
  | .noArgs => "NoArgs"
  | .owner => "Owner"
  | .ownerEvent => "OwnerEvent"

def ofName? (name : String) : Option CallKind :=
  all.find? (·.name == name)

-- The bit of a kind in a set of kinds.
def bit : CallKind → Nat
  | .noArgs => 1
  | .owner => 2
  | .ownerEvent => 4

-- Kinds do not share bits.
theorem bit_and_bit_ne_zero_iff (k l : CallKind) : k.bit &&& l.bit ≠ 0 ↔ k = l := by
  cases k <;> cases l <;> decide

def passesOwner : CallKind → Bool
  | .noArgs => false
  | _ => true

def passesEvent : CallKind → Bool
  | .ownerEvent => true
  | _ => false

end CallKind

-- Names with their masks.
abbrev Masks := List (String × Nat)

namespace Masks

def names (masks : Masks) : List String :=
  masks.map (·.1)

-- The mask of a name. It has no bits as long as the name is not there.
def maskOf (masks : Masks) (name : String) : Nat :=
  match masks with
  | [] => 0
  | (n, mask) :: rest => if n = name then mask else maskOf rest name

-- Sets the bit of a kind in the mask of a name, which is added if it is not there.
def mark (masks : Masks) (name : String) (kind : CallKind) : Masks :=
  match masks with
  | [] => [(name, kind.bit)]
  | (n, mask) :: rest =>
    if n = name then (n, mask ||| kind.bit) :: rest else (n, mask) :: mark rest name kind

theorem maskOf_mark (masks : Masks) (name n : String) (kind : CallKind) :
    (masks.mark name kind).maskOf n =
      if n = name then masks.maskOf n ||| kind.bit else masks.maskOf n := by
  induction masks with
  | nil =>
    by_cases h : n = name
    · simp [mark, maskOf, h]
    · simp [mark, maskOf, h, Ne.symm h]
  | cons entry rest ih =>
    obtain ⟨first, mask⟩ := entry
    by_cases hfirst : first = name
    · subst first
      by_cases h : n = name
      · simp [mark, maskOf, h]
      · simp [mark, maskOf, h, Ne.symm h]
    · by_cases h : first = n
      · subst first
        simp [mark, maskOf, hfirst]
      · simp [mark, maskOf, hfirst, h, ih]

theorem names_mark (masks : Masks) (name : String) (kind : CallKind) :
    (masks.mark name kind).names =
      if name ∈ masks.names then masks.names else masks.names ++ [name] := by
  induction masks with
  | nil => rfl
  | cons entry rest ih =>
    obtain ⟨first, mask⟩ := entry
    by_cases hfirst : first = name
    · simp [mark, names, hfirst]
    · simp only [names] at ih
      by_cases hmem : name ∈ rest.map (·.1)
      · simp [mark, names, hfirst, hmem, ih]
      · simp [mark, names, hfirst, hmem, ih, Ne.symm hfirst]

theorem nodup_names_mark {masks : Masks} (h : masks.names.Nodup) (name : String)
    (kind : CallKind) : (masks.mark name kind).names.Nodup := by
  rw [names_mark]
  split
  · exact h
  · rename_i hmem
    exact List.nodup_append.2 ⟨h, by simp, by simpa using fun n hn => ne_of_mem_of_not_mem hn hmem⟩

end Masks

-- The calls that have been asked for, as a mask for each name with a bit for each kind of call.
structure CallLog where
  masks : Masks := []
  nodup : masks.names.Nodup := by exact List.nodup_nil
deriving DecidableEq

namespace CallLog

instance : Inhabited CallLog := ⟨{}⟩

-- Whether a call of this name and kind has been asked for.
def holds (log : CallLog) (name : String) (kind : CallKind) : Bool :=
  log.masks.maskOf name &&& kind.bit ≠ 0

-- Asks for a call: whether it may be made, and the log afterwards.
def approve (log : CallLog) (name : String) (kind : CallKind) : Bool × CallLog :=
  (!log.holds name kind,
    { masks := log.masks.mark name kind, nodup := Masks.nodup_names_mark log.nodup name kind })

-- The number of names that have been asked for, with any kind.
def size (log : CallLog) : Nat := log.masks.length

def isEmpty (log : CallLog) : Bool := log.masks.isEmpty

@[simp] theorem holds_empty (name : String) (kind : CallKind) :
    ({} : CallLog).holds name kind = false := by
  simp [holds, Masks.maskOf]

@[simp] theorem approve_fst (log : CallLog) (name : String) (kind : CallKind) :
    (log.approve name kind).1 = !log.holds name kind :=
  rfl

-- A log holds the call that was asked for last and those that it held before.
theorem holds_approve_iff (log : CallLog) (name n : String) (kind k : CallKind) :
    (log.approve name kind).2.holds n k = true ↔
      (n, k) = (name, kind) ∨ log.holds n k = true := by
  simp only [holds, approve, Masks.maskOf_mark, decide_eq_true_eq, Prod.mk.injEq]
  by_cases h : n = name
  · have hbit := CallKind.bit_and_bit_ne_zero_iff kind k
    simp only [h, if_true, true_and, Nat.and_or_distrib_right, ne_eq, Nat.or_eq_zero_iff] at hbit ⊢
    rw [Decidable.not_and_iff_not_or_not, hbit, or_comm, eq_comm]
  · simp [h]

end CallLog

end Lifecycle
