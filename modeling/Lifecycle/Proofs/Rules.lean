import Lifecycle.Report
import Mathlib.Data.List.Forall2

namespace Lifecycle

namespace Rules

-- Whether parameters break a rule, whatever the other rules say.
def breaks (r : Rules) (params : List NamedType) : Violation → Bool
  | .tooManyArguments => 2 < params.length
  | .invalidFirstArgument =>
    params[0]?.any fun first => first.name ≠ r.ownerType ∧ r.ownerType ∉ first.capabilities
  | .invalidSecondArgument => params[1]?.any fun second => second.name ≠ r.eventType

theorem breaks_first (r : Rules) (first : NamedType) (rest : List NamedType) :
    r.breaks (first :: rest) .invalidFirstArgument = !first.isAssignableTo r.ownerType := by
  simp [breaks, NamedType.isAssignableTo, beq_eq_decide]

theorem breaks_second (r : Rules) (first second : NamedType) (rest : List NamedType) :
    r.breaks (first :: second :: rest) .invalidSecondArgument =
      decide (second.name ≠ r.eventType) := by
  simp [breaks]

-- The rule that counts is the first broken one.
theorem violation?_eq_find? (r : Rules) (params : List NamedType) :
    r.violation? params = Violation.all.find? (r.breaks params) := by
  match params with
  | [] => simp [violation?, maxArity, Violation.all, breaks]
  | [first] =>
    have hmany : r.breaks [first] .tooManyArguments = false := by simp [breaks]
    have hsecond : r.breaks [first] .invalidSecondArgument = false := by simp [breaks]
    cases h : first.isAssignableTo r.ownerType <;>
      simp [violation?, maxArity, Violation.all, List.find?, hmany, breaks_first, hsecond, h]
  | [first, second] =>
    have hmany : r.breaks [first, second] .tooManyArguments = false := by simp [breaks]
    cases h : first.isAssignableTo r.ownerType with
    | false => simp [violation?, maxArity, Violation.all, List.find?, hmany, breaks_first, h]
    | true =>
      by_cases hname : second.name = r.eventType <;>
        simp [violation?, maxArity, Violation.all, List.find?, hmany, breaks_first, breaks_second, h,
          hname]
  | first :: second :: third :: rest =>
    have hmany : r.breaks (first :: second :: third :: rest) .tooManyArguments = true := by
      simp [breaks]
    simp [violation?, maxArity, Violation.all, hmany]

-- Whether a callback breaks some rule.
def rejects (r : Rules) (c : Callback) : Bool :=
  Violation.all.any (r.breaks c.params)

theorem rejects_eq_isSome (r : Rules) (c : Callback) :
    r.rejects c = (r.violation? c.params).isSome := by
  rw [violation?_eq_find?, List.isSome_find?, rejects]

-- The callbacks of a list that break some rule.
def rejected (r : Rules) (callbacks : List Callback) : List Callback :=
  callbacks.filter r.rejects

end Rules

-- What a diagnostic tells of a callback that is rejected.
structure Diagnostic.Tells (r : Rules) (c : Callback) (d : Diagnostic) : Prop where
  id : d.id = c.id
  className : d.className = c.declaringClass.qualifiedName
  callbackName : d.callbackName = c.name
  location : d.location = c.location
  violation : Violation.all.find? (r.breaks c.params) = some d.violation

-- A callback leaves no choice to its diagnostic.
theorem Diagnostic.rightUnique_tells (r : Rules) : Relator.RightUnique (Diagnostic.Tells r) := by
  intro c d e hd he
  obtain ⟨did, dclass, dname, dlocation, dviolation⟩ := d
  obtain ⟨eid, eclass, ename, elocation, eviolation⟩ := e
  obtain ⟨rfl, rfl, rfl, rfl, hdv⟩ := hd
  obtain ⟨rfl, rfl, rfl, rfl, hev⟩ := he
  obtain rfl : dviolation = eviolation := Option.some.inj (hdv.symm.trans hev)
  rfl

theorem Diagnostic.tells_ofRejection {r : Rules} {c : Callback} {v : Violation}
    (h : r.violation? c.params = some v) :
    Diagnostic.Tells r c (.ofRejection { callback := c, violation := v }) :=
  ⟨rfl, rfl, rfl, rfl, by rw [← Rules.violation?_eq_find?, h]; rfl⟩

namespace Processor

theorem judgeAll_cons_rejected {r : Rules} {c : Callback} {v : Violation}
    (h : r.violation? c.params = some v) (rest : List Callback) :
    judgeAll r (c :: rest) =
      (.ofRejection { callback := c, violation := v } :: (judgeAll r rest).1,
        (judgeAll r rest).2) := by
  simp [judgeAll, Rules.judge, h]

theorem judgeAll_cons_accepted {r : Rules} {c : Callback} (h : r.violation? c.params = none)
    (rest : List Callback) :
    judgeAll r (c :: rest) =
      ((judgeAll r rest).1, .ofCallback c :: (judgeAll r rest).2) := by
  simp [judgeAll, Rules.judge, h]

-- There is one diagnostic for each rejected callback, in their order.
theorem judgeAll_fst (r : Rules) (callbacks : List Callback) :
    List.Forall₂ (Diagnostic.Tells r) (r.rejected callbacks) (judgeAll r callbacks).1 := by
  induction callbacks with
  | nil => exact .nil
  | cons c rest ih =>
    cases h : r.violation? c.params with
    | some v =>
      have hc : r.rejects c = true := by simp [Rules.rejects_eq_isSome, h]
      rw [judgeAll_cons_rejected h, Rules.rejected, List.filter_cons_of_pos hc]
      exact .cons (Diagnostic.tells_ofRejection h) ih
    | none =>
      have hc : ¬ r.rejects c = true := by simp [Rules.rejects_eq_isSome, h]
      rw [judgeAll_cons_accepted h, Rules.rejected, List.filter_cons_of_neg hc]
      exact ih

-- The other callbacks are accepted, in their order.
theorem judgeAll_snd (r : Rules) (callbacks : List Callback) :
    (judgeAll r callbacks).2 = (callbacks.filter (!r.rejects ·)).map .ofCallback := by
  induction callbacks with
  | nil => rfl
  | cons c rest ih =>
    cases h : r.violation? c.params with
    | some v => simp [judgeAll_cons_rejected h, Rules.rejects_eq_isSome, h, ih]
    | none => simp [judgeAll_cons_accepted h, Rules.rejects_eq_isSome, h, ih]

theorem judgeAll_fst_eq_nil_iff (r : Rules) (callbacks : List Callback) :
    (judgeAll r callbacks).1 = [] ↔ r.rejected callbacks = [] := by
  have hlen := (judgeAll_fst r callbacks).length_eq
  rw [← List.length_eq_zero_iff, ← hlen, List.length_eq_zero_iff]

-- If none is rejected, all are accepted.
theorem judgeAll_snd_of_none_rejected {r : Rules} {callbacks : List Callback}
    (h : r.rejected callbacks = []) :
    (judgeAll r callbacks).2 = callbacks.map .ofCallback := by
  have hall : ∀ c ∈ callbacks, (!r.rejects c) = true := by
    simpa [Rules.rejected] using h
  rw [judgeAll_snd, List.filter_eq_self.2 hall]

end Processor

end Lifecycle
