import Lifecycle.Dispatch
import Mathlib.Data.List.Infix

namespace Lifecycle

section Earlier

variable {α : Type}

-- The items of a list, each with those before it.
def withEarlier (items : List α) : List (List α × α) :=
  items.inits.zip items

theorem withEarlier_cons (x : α) (items : List α) :
    withEarlier (x :: items) = ([], x) :: (withEarlier items).map fun y => (x :: y.1, y.2) := by
  simp [withEarlier, List.zip_map_left, Prod.map]

theorem withEarlier_append (xs ys : List α) :
    withEarlier (xs ++ ys) = withEarlier xs ++ (withEarlier ys).map fun y => (xs ++ y.1, y.2) := by
  induction xs with
  | nil => simp [withEarlier]
  | cons x xs ih =>
    rw [List.cons_append, withEarlier_cons, ih, withEarlier_cons]
    simp

theorem withEarlier_map {β : Type} (f : α → β) (items : List α) :
    withEarlier (items.map f) = (withEarlier items).map fun x => (x.1.map f, f x.2) := by
  induction items with
  | nil => rfl
  | cons x items ih =>
    rw [List.map_cons, withEarlier_cons, ih, withEarlier_cons]
    simp [Function.comp_def]

theorem map_snd_withEarlier (items : List α) : (withEarlier items).map (·.2) = items := by
  induction items with
  | nil => rfl
  | cons x items ih =>
    rw [withEarlier_cons]
    simpa [Function.comp_def] using ih

theorem forall_withEarlier_iff_pairwise {R : α → α → Prop} (items : List α) :
    (∀ x ∈ withEarlier items, ∀ y ∈ x.1, R y x.2) ↔ items.Pairwise R := by
  induction items with
  | nil => simp [withEarlier]
  | cons first items ih =>
    have hfirst : (∀ x ∈ withEarlier items, R first x.2) ↔ ∀ x ∈ items, R first x := by
      conv_rhs => rw [← map_snd_withEarlier items, List.forall_mem_map]
    rw [withEarlier_cons, List.pairwise_cons, ← ih, ← hfirst]
    simp only [List.forall_mem_cons, List.forall_mem_map, List.not_mem_nil, false_implies,
      implies_true, true_and]
    exact ⟨fun h => ⟨fun x hx => (h x hx).1, fun x hx => (h x hx).2⟩,
      fun h x hx => ⟨h.1 x hx, h.2 x hx⟩⟩

end Earlier

namespace Call

-- Whether a log that was asked for the first call refuses the second one.
def Clashes (c d : Call) : Prop :=
  c.key ≠ none ∧ c.key = d.key ∧ c.kind = d.kind

instance (c d : Call) : Decidable (c.Clashes d) :=
  inferInstanceAs (Decidable (_ ∧ _ ∧ _))

-- Calls without those that an earlier one clashes with, in the same list or before it.
def unrepeated (earlier calls : List Call) : List Call :=
  ((withEarlier calls).filter fun x => ∀ c ∈ earlier ++ x.1, ¬ c.Clashes x.2).map (·.2)

theorem unrepeated_append (earlier xs ys : List Call) :
    unrepeated earlier (xs ++ ys) = unrepeated earlier xs ++ unrepeated (earlier ++ xs) ys := by
  simp only [unrepeated, withEarlier_append, List.filter_append, List.map_append, List.filter_map,
    List.map_map, Function.comp_def, List.append_assoc]

theorem unrepeated_cons (earlier : List Call) (c : Call) (rest : List Call) :
    unrepeated earlier (c :: rest) =
      (if ∀ e ∈ earlier, ¬ e.Clashes c then [c] else []) ++ unrepeated (earlier ++ [c]) rest := by
  have hone : unrepeated earlier [c] = if ∀ e ∈ earlier, ¬ e.Clashes c then [c] else [] := by
    simp only [unrepeated, withEarlier_cons, List.filter_cons, List.append_nil]
    split <;> rename_i h <;> simp_all [withEarlier]
  rw [← List.singleton_append, unrepeated_append, hone]

-- Nothing is left out exactly if no call clashes with a later one.
theorem unrepeated_nil_eq_self_iff (calls : List Call) :
    unrepeated [] calls = calls ↔ calls.Pairwise fun c d => ¬ c.Clashes d := by
  rw [← forall_withEarlier_iff_pairwise]
  constructor
  · intro h
    have hlength := congrArg List.length h
    rw [unrepeated, List.length_map] at hlength
    conv_rhs at hlength => rw [← map_snd_withEarlier calls, List.length_map]
    simpa using List.length_filter_eq_length_iff.1 hlength
  · intro h
    have hall : (withEarlier calls).filter (fun x => ∀ c ∈ [] ++ x.1, ¬ c.Clashes x.2) =
        withEarlier calls := List.filter_eq_self.2 (by simpa using h)
    rw [unrepeated, hall, map_snd_withEarlier]

end Call

-- What a log is the record of: it holds the names and kinds of the calls that have a name for it.
def CallLog.Knows (log : CallLog) (calls : List Call) : Prop :=
  ∀ name kind, log.holds name kind = true ↔ ∃ c ∈ calls, c.key = some name ∧ c.kind = kind

namespace CallLog.Knows

theorem empty : ({} : CallLog).Knows [] := by
  simp [Knows]

theorem skip {log : CallLog} {earlier : List Call} (h : log.Knows earlier) {c : Call}
    (hkey : c.key = none) : log.Knows (earlier ++ [c]) := by
  intro name kind
  simp [h name kind, or_and_right, exists_or, hkey]

theorem approve {log : CallLog} {earlier : List Call} (h : log.Knows earlier) {c : Call}
    {key : String} (hkey : c.key = some key) :
    (log.approve key c.kind).2.Knows (earlier ++ [c]) := by
  intro name kind
  rw [holds_approve_iff, h name kind]
  simp only [List.mem_append, List.mem_singleton, or_and_right, exists_or, exists_eq_left, hkey,
    Option.some.injEq, Prod.mk.injEq]
  rw [or_comm, @eq_comm _ name, @eq_comm _ kind]

theorem holds_iff {log : CallLog} {earlier : List Call} (h : log.Knows earlier) {c : Call}
    {key : String} (hkey : c.key = some key) :
    log.holds key c.kind = true ↔ ∃ e ∈ earlier, e.Clashes c := by
  rw [h key c.kind]
  refine exists_congr fun e => and_congr_right fun _ => ?_
  rw [Call.Clashes, hkey]
  constructor
  · rintro ⟨he, hkind⟩
    exact ⟨by simp [he], he, hkind⟩
  · rintro ⟨-, he, hkind⟩
    exact ⟨he, hkind⟩

end CallLog.Knows

-- Calls that run on a log which knows the earlier ones: those without an earlier clash are made,
-- and the log knows all of them afterwards.
theorem Call.run_some {log : CallLog} {earlier : List Call} (h : log.Knows earlier)
    (calls : List Call) :
    ∃ after, run calls (some log) = (unrepeated earlier calls, some after) ∧
      after.Knows (earlier ++ calls) := by
  induction calls generalizing log earlier with
  | nil => exact ⟨log, rfl, by simpa using h⟩
  | cons c rest ih =>
    cases hkey : c.key with
    | none =>
      obtain ⟨after, hrun, hafter⟩ := ih (h.skip hkey)
      have hfree : ∀ e ∈ earlier, ¬ e.Clashes c := by
        rintro e - ⟨hne, heq, -⟩
        exact hne (heq.trans hkey)
      refine ⟨after, ?_, by simpa using hafter⟩
      simp only [run, hkey, hrun, unrepeated_cons, if_pos hfree, List.singleton_append]
    | some key =>
      obtain ⟨after, hrun, hafter⟩ := ih (h.approve hkey)
      refine ⟨after, ?_, by simpa using hafter⟩
      simp only [run, hkey, CallLog.approve_fst, hrun, unrepeated_cons]
      by_cases hclash : ∃ e ∈ earlier, e.Clashes c
      · have hheld := (h.holds_iff hkey).2 hclash
        have hnot : ¬ ∀ e ∈ earlier, ¬ e.Clashes c := by simpa using hclash
        simp [hheld, if_neg hnot]
      · have hheld : log.holds key c.kind = false := by
          simpa using mt (h.holds_iff hkey).1 hclash
        have hfree : ∀ e ∈ earlier, ¬ e.Clashes c := by simpa using hclash
        simp [hheld, if_pos hfree]

-- Adapters that run on a log which knows the earlier calls: each makes its calls without those that
-- clash with an earlier one, be it of the adapters before it or its own.
theorem runAll_eq {log : CallLog} {earlier : List Call} (h : log.Knows earlier) (event : Event)
    (adapters : List Adapter) :
    runAll event adapters log = (withEarlier adapters).map fun x =>
      Call.unrepeated (earlier ++ x.1.flatMap (·.callsFor event)) (x.2.callsFor event) := by
  induction adapters generalizing log earlier with
  | nil => rfl
  | cons a rest ih =>
    obtain ⟨after, hrun, hafter⟩ := Call.run_some h (a.callsFor event)
    simp only [runAll, Adapter.run, hrun, Option.getD_some, ih hafter, withEarlier_cons,
      List.map_cons, List.map_map, Function.comp_def, List.flatMap_nil, List.append_nil,
      List.flatMap_cons, List.append_assoc]

theorem flatten_map_unrepeated (calls : Adapter → List Call) (earlier : List Call)
    (adapters : List Adapter) :
    ((withEarlier adapters).map fun x =>
        Call.unrepeated (earlier ++ x.1.flatMap calls) (calls x.2)).flatten =
      Call.unrepeated earlier (adapters.flatMap calls) := by
  induction adapters generalizing earlier with
  | nil => rfl
  | cons a rest ih =>
    rw [withEarlier_cons, List.flatMap_cons, Call.unrepeated_append, ← ih (earlier ++ calls a)]
    simp [Function.comp_def]

end Lifecycle
