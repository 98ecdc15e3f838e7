import Lifecycle.Proofs.SharedLog
import Mathlib.Data.Finset.Card
import Mathlib.Data.Finset.Dedup
import Mathlib.Data.List.Induction

namespace Lifecycle.CallLog

-- Asks for calls by their names and kinds, in turn: the answers, and the log afterwards.
def approveAll (log : CallLog) : List (String × CallKind) → List Bool × CallLog
  | [] => ([], log)
  | (name, kind) :: rest =>
    let (approved, log) := log.approve name kind
    let (answers, log) := approveAll log rest
    (approved :: answers, log)

-- The names and kinds that a log holds.
def recorded (log : CallLog) : Set (String × CallKind) :=
  {c | log.holds c.1 c.2 = true}

theorem mem_recorded_iff {log : CallLog} {c : String × CallKind} :
    c ∈ log.recorded ↔ log.holds c.1 c.2 = true :=
  Iff.rfl

theorem approveAll_append (log : CallLog) (xs ys : List (String × CallKind)) :
    log.approveAll (xs ++ ys) =
      ((log.approveAll xs).1 ++ ((log.approveAll xs).2.approveAll ys).1,
        ((log.approveAll xs).2.approveAll ys).2) := by
  induction xs generalizing log with
  | nil => rfl
  | cons c xs ih => simp only [List.cons_append, approveAll, ih]

theorem mem_recorded_approveAll {log : CallLog} {calls : List (String × CallKind)}
    {c : String × CallKind} :
    c ∈ (log.approveAll calls).2.recorded ↔ c ∈ calls ∨ c ∈ log.recorded := by
  induction calls generalizing log with
  | nil => simp [approveAll]
  | cons d rest ih =>
    have hstep : c ∈ (log.approve d.1 d.2).2.recorded ↔ c = d ∨ c ∈ log.recorded :=
      holds_approve_iff log d.1 c.1 d.2 c.2
    rw [approveAll, ih, hstep, List.mem_cons]
    tauto

theorem mem_names_approveAll {log : CallLog} {calls : List (String × CallKind)} {name : String} :
    name ∈ (log.approveAll calls).2.masks.names ↔
      name ∈ calls.map (·.1) ∨ name ∈ log.masks.names := by
  induction calls generalizing log with
  | nil => simp [approveAll]
  | cons d rest ih =>
    have hstep : name ∈ (log.approve d.1 d.2).2.masks.names ↔
        name = d.1 ∨ name ∈ log.masks.names := by
      rw [approve, Masks.names_mark]
      split
      · rename_i hmem
        exact ⟨.inr, fun h => h.elim (· ▸ hmem) id⟩
      · simp [or_comm]
    rw [approveAll, ih, hstep, List.map_cons, List.mem_cons]
    tauto

-- A log counts each name once.
theorem size_eq_card (log : CallLog) : log.size = log.masks.names.toFinset.card := by
  rw [List.toFinset_card_of_nodup log.nodup, Masks.names, List.length_map, size]

theorem size_approveAll (calls : List (String × CallKind)) :
    (approveAll {} calls).2.size = (calls.map (·.1)).toFinset.card := by
  have hnames : (approveAll {} calls).2.masks.names.toFinset = (calls.map (·.1)).toFinset := by
    ext name
    have hnew : name ∉ ({} : CallLog).masks.names := List.not_mem_nil
    rw [List.mem_toFinset, mem_names_approveAll, List.mem_toFinset, or_iff_left hnew]
  rw [size_eq_card, hnames]

theorem isEmpty_iff_size (log : CallLog) : log.isEmpty = true ↔ log.size = 0 := by
  simp [isEmpty, size]

theorem approveAll_concat (log : CallLog) (calls : List (String × CallKind))
    (c : String × CallKind) :
    (log.approveAll (calls ++ [c])).1 =
      (log.approveAll calls).1 ++ [!(log.approveAll calls).2.holds c.1 c.2] := by
  rw [approveAll_append]
  rfl

theorem length_approveAll (log : CallLog) (calls : List (String × CallKind)) :
    (log.approveAll calls).1.length = calls.length := by
  induction calls generalizing log with
  | nil => rfl
  | cons c rest ih => simp [approveAll, ih]

-- A call of a new log is answered by the calls before it.
theorem holds_approveAll (calls : List (String × CallKind)) (c : String × CallKind) :
    (approveAll {} calls).2.holds c.1 c.2 = decide (c ∈ calls) := by
  rw [Bool.eq_iff_iff, decide_eq_true_iff, ← mem_recorded_iff, mem_recorded_approveAll]
  simp [mem_recorded_iff]

theorem getElem?_approveAll {calls : List (String × CallKind)} {i : Nat} {c : String × CallKind}
    (h : calls[i]? = some c) :
    (approveAll {} calls).1[i]? = some (decide (c ∉ calls.take i)) := by
  obtain ⟨hi, rfl⟩ := List.getElem?_eq_some_iff.1 h
  have hsplit : calls = calls.take i ++ calls[i] :: calls.drop (i + 1) := by
    rw [List.cons_getElem_drop_succ, List.take_append_drop]
  have hlength : (approveAll {} (calls.take i)).1.length = i := by
    rw [length_approveAll, List.length_take_of_le hi.le]
  conv_lhs => rw [hsplit, approveAll_append]
  rw [List.getElem?_append_right hlength.le, hlength, Nat.sub_self]
  simp [approveAll, holds_approveAll]

-- So many calls are approved as there are different ones.
theorem count_approveAll (calls : List (String × CallKind)) :
    (approveAll {} calls).1.count true = calls.toFinset.card := by
  induction calls using List.reverseRecOn with
  | nil => rfl
  | append_singleton calls c ih =>
    rw [approveAll_concat, holds_approveAll, List.count_append, ih, List.toFinset_append,
      Finset.union_comm, List.toFinset_cons, List.toFinset_nil, insert_empty_eq,
      Finset.singleton_union]
    by_cases hc : c ∈ calls
    · simp [hc, Finset.insert_eq_of_mem]
    · simp [hc, Finset.card_insert_of_notMem]

-- A new log that is asked for calls in turn is the set of their names and kinds. A call is approved
-- just in case that no call before it has the same name and kind; afterwards the log counts the
-- different names and holds exactly the calls. In another order, as many calls are approved and the
-- log holds and counts the same. Whatever log is asked, no answer depends on calls of other names or
-- of other kinds.
theorem approveAll_of_calls (calls : List (String × CallKind)) :
    (approveAll {} calls).1.length = calls.length ∧
    (∀ i c, calls[i]? = some c →
      (approveAll {} calls).1[i]? = some (decide (c ∉ calls.take i))) ∧
    (approveAll {} calls).2.size = (calls.map (·.1)).toFinset.card ∧
    ((approveAll {} calls).2.isEmpty = true ↔ calls = []) ∧
    (approveAll {} calls).2.recorded = {c | c ∈ calls} ∧
    (∀ calls', calls.Perm calls' →
      (approveAll {} calls').1.count true = (approveAll {} calls).1.count true ∧
      (approveAll {} calls').2.recorded = (approveAll {} calls).2.recorded ∧
      (approveAll {} calls').2.size = (approveAll {} calls).2.size) ∧
    ∀ (log : CallLog) (c : String × CallKind), c ∉ calls →
      ((log.approveAll calls).2.approve c.1 c.2).1 = (log.approve c.1 c.2).1 := by
  have hrecorded : ∀ calls, (approveAll {} calls).2.recorded = {c | c ∈ calls} := fun calls => by
    ext c
    simp [mem_recorded_iff, holds_approveAll]
  refine ⟨length_approveAll _ calls, fun i c => getElem?_approveAll, size_approveAll calls, ?_,
    hrecorded calls, fun calls' hperm => ⟨?_, ?_, ?_⟩, fun log c hc => ?_⟩
  · rw [isEmpty_iff_size, size_approveAll]
    simp
  · rw [count_approveAll, count_approveAll, List.toFinset_eq_of_perm _ _ hperm]
  · rw [hrecorded, hrecorded]
    ext c
    exact hperm.mem_iff.symm
  · rw [size_approveAll, size_approveAll, List.toFinset_eq_of_perm _ _ (hperm.map _)]
  · have hsame : (log.approveAll calls).2.holds c.1 c.2 = log.holds c.1 c.2 := by
      rw [Bool.eq_iff_iff, ← mem_recorded_iff, mem_recorded_approveAll, mem_recorded_iff]
      simp [hc]
    rw [approve_fst, approve_fst, hsame]

end Lifecycle.CallLog
