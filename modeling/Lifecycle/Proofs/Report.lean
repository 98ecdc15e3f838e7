import Lifecycle.Proofs.Dispatch

namespace Lifecycle

-- A report on some classes and one on more of them.
def Report.append (r s : Report) : Report where
  units := r.units ++ s.units
  diagnostics := r.diagnostics ++ s.diagnostics
  failedClasses := r.failedClasses ++ s.failedClasses

namespace Processor

variable {p : Processor}

def unit? (p : Processor) (d : Declaration) : Option SourceUnit :=
  match p.outcome d with
  | .ok (.generated unit) => some unit
  | _ => none

def told (p : Processor) (d : Declaration) : List Diagnostic :=
  match p.outcome d with
  | .ok (.failed diagnostics) => diagnostics
  | _ => []

def fails (p : Processor) (d : Declaration) : Bool :=
  match p.outcome d with
  | .ok (.failed _) => true
  | _ => false

theorem unit?_eq_some_iff {d : Declaration} {u : SourceUnit} :
    p.unit? d = some u ↔ p.outcome d = .ok (.generated u) := by
  unfold unit?
  split
  · rename_i unit hunit
    simp [hunit]
  · rename_i hne
    simpa using hne u

theorem fails_iff {d : Declaration} :
    p.fails d = true ↔ ∃ diagnostics, p.outcome d = .ok (.failed diagnostics) := by
  unfold fails
  split
  · rename_i diagnostics hfailed
    simp [hfailed]
  · rename_i hne
    simpa using hne

-- A class that fails is told about, and no other class is.
theorem told_eq_nil_iff {d : Declaration} : p.told d = [] ↔ p.fails d = false := by
  unfold told fails
  split
  · rename_i diagnostics hfailed
    obtain ⟨hrejected, htells⟩ := (outcome_eq_failed_iff p d diagnostics).1 hfailed
    have hne : diagnostics ≠ [] := by
      rintro rfl
      exact hrejected (List.forall₂_nil_right_iff.1 htells)
    simp [hne]
  · simp

-- What is told of classes none of which ends the run.
def summary (p : Processor) (ds : List Declaration) : Report where
  units := ds.filterMap p.unit?
  diagnostics := ds.flatMap p.told
  failedClasses := (ds.filter p.fails).map fun d => d.subject.qualifiedName

-- Whether a class ends the run, and no class before it does.
def EndsWith (p : Processor) (ds : List Declaration) (e : GenerationError) : Prop :=
  ∃ before d after, ds = before ++ d :: after ∧
    (∀ c ∈ before, ∃ o, p.outcome c = .ok o) ∧ p.outcome d = .error e

theorem summary_append (xs ys : List Declaration) :
    p.summary (xs ++ ys) = (p.summary xs).append (p.summary ys) := by
  simp [summary, Report.append]

theorem summary_cons {d : Declaration} {o : Outcome} (h : p.outcome d = .ok o) (r : Report)
    (rest : List Declaration) :
    r.append (p.summary (d :: rest)) = (r.record d.subject o).append (p.summary rest) := by
  cases o <;> simp [summary, Report.append, Report.record, unit?, told, fails, h]

theorem endsWith_cons_of_ok {d : Declaration} {o : Outcome} (h : p.outcome d = .ok o)
    {rest : List Declaration} {e : GenerationError} :
    p.EndsWith (d :: rest) e ↔ p.EndsWith rest e := by
  constructor
  · rintro ⟨before, c, after, hds, hbefore, hc⟩
    cases before with
    | nil =>
      obtain ⟨rfl, rfl⟩ := List.cons.inj hds
      rw [h] at hc
      cases hc
    | cons b before =>
      obtain ⟨-, rfl⟩ := List.cons.inj hds
      exact ⟨before, c, after, rfl, fun c hc => hbefore c (List.mem_cons_of_mem b hc), hc⟩
  · rintro ⟨before, c, after, rfl, hbefore, hc⟩
    refine ⟨d :: before, c, after, rfl, fun b hb => ?_, hc⟩
    rcases List.mem_cons.1 hb with rfl | hb
    · exact ⟨o, h⟩
    · exact hbefore b hb

theorem endsWith_cons_of_error {d : Declaration} {e' : GenerationError}
    (h : p.outcome d = .error e') {rest : List Declaration} {e : GenerationError} :
    p.EndsWith (d :: rest) e ↔ e' = e := by
  constructor
  · rintro ⟨before, c, after, hds, hbefore, hc⟩
    cases before with
    | nil =>
      obtain ⟨rfl, -⟩ := List.cons.inj hds
      rw [h] at hc
      exact Except.error.inj hc
    | cons b before =>
      obtain ⟨rfl, -⟩ := List.cons.inj hds
      obtain ⟨o, ho⟩ := hbefore d (by simp)
      rw [h] at ho
      cases ho
  · rintro rfl
    exact ⟨[], d, rest, rfl, by simp, h⟩

-- A run goes on from what the classes before have left, and adds what each class adds by itself.
theorem foldlM_record (ds : List Declaration) (r : Report) :
    (∀ s, ds.foldlM (fun r d => return r.record d.subject (← p.outcome d)) r = .ok s ↔
      (∀ d ∈ ds, ∃ o, p.outcome d = .ok o) ∧ s = r.append (p.summary ds)) ∧
    ∀ e, ds.foldlM (fun r d => return r.record d.subject (← p.outcome d)) r = .error e ↔
      p.EndsWith ds e := by
  induction ds generalizing r with
  | nil =>
    refine ⟨fun s => ?_, fun e => ?_⟩
    · have hsummary : r.append (p.summary []) = r := by simp [summary, Report.append]
      simp [pure, Except.pure, hsummary, eq_comm]
    · simp [pure, Except.pure, EndsWith]
  | cons d rest ih =>
    cases h : p.outcome d with
    | error e' =>
      refine ⟨fun s => ?_, fun e => ?_⟩
      · simp [List.foldlM_cons, h, bind, Except.bind]
      · rw [endsWith_cons_of_error h]
        simp [List.foldlM_cons, h, bind, Except.bind]
    | ok o =>
      obtain ⟨hok, herror⟩ := ih (r.record d.subject o)
      have hstep : (d :: rest).foldlM (fun r d => return r.record d.subject (← p.outcome d)) r =
          rest.foldlM (fun r d => return r.record d.subject (← p.outcome d))
            (r.record d.subject o) := by
        simp only [List.foldlM_cons, h]
        rfl
      refine ⟨fun s => ?_, fun e => ?_⟩
      · rw [hstep, hok, summary_cons h]
        simp [h]
      · rw [hstep, herror, endsWith_cons_of_ok h]

theorem report_eq_ok_iff {ds : List Declaration} {r : Report} :
    p.report ds = .ok r ↔ (∀ d ∈ ds, ∃ o, p.outcome d = .ok o) ∧ r = p.summary ds := by
  have hempty : Report.append {} (p.summary ds) = p.summary ds := by simp [Report.append]
  have hrun := (foldlM_record (p := p) ds {}).1 r
  rwa [hempty] at hrun

theorem report_eq_error_iff {ds : List Declaration} {e : GenerationError} :
    p.report ds = .error e ↔ p.EndsWith ds e :=
  (foldlM_record ds {}).2 e

theorem exists_report_eq_error_iff {ds : List Declaration} :
    (∃ e, p.report ds = .error e) ↔ ∃ d ∈ ds, ∃ e, p.outcome d = .error e := by
  constructor
  · rintro ⟨e, h⟩
    obtain ⟨before, d, after, rfl, -, hd⟩ := report_eq_error_iff.1 h
    exact ⟨d, by simp, e, hd⟩
  · rintro ⟨d, hd, e, he⟩
    cases hreport : p.report ds with
    | error e' => exact ⟨e', rfl⟩
    | ok r =>
      obtain ⟨o, ho⟩ := (report_eq_ok_iff.1 hreport).1 d hd
      rw [he] at ho
      cases ho

theorem isSuccess_summary_iff {ds : List Declaration} :
    (p.summary ds).isSuccess = true ↔ ∀ d ∈ ds, p.fails d = false := by
  simp [Report.isSuccess, summary, List.flatMap_eq_nil_iff, told_eq_nil_iff]

theorem failedClasses_summary_eq_nil_iff {ds : List Declaration} :
    (p.summary ds).failedClasses = [] ↔ ∀ d ∈ ds, p.fails d = false := by
  simp [summary]

theorem isSuccess_summary_of_perm {xs ys : List Declaration} (h : xs.Perm ys) :
    (p.summary xs).isSuccess = (p.summary ys).isSuccess := by
  rw [Bool.eq_iff_iff, isSuccess_summary_iff, isSuccess_summary_iff]
  exact forall_congr' fun d => by rw [h.mem_iff]

-- No class has a say in what comes of another one. A run over some classes and then over more is the
-- run over the ones and the run over the others, put together; the order of the classes only orders
-- what is told; and a run is a success just in case that no class fails.
theorem report_of_classes (p : Processor) (xs ys : List Declaration) :
    ((∃ e, p.report (xs ++ ys) = .error e) ↔ ∃ d ∈ xs ++ ys, ∃ e, p.outcome d = .error e) ∧
    (∀ e, p.report (xs ++ ys) = .error e → p.EndsWith (xs ++ ys) e) ∧
    (∀ r, p.report (xs ++ ys) = .ok r → ∃ s t, p.report xs = .ok s ∧ p.report ys = .ok t ∧
      r.units = s.units ++ t.units ∧ r.diagnostics = s.diagnostics ++ t.diagnostics ∧
        r.failedClasses = s.failedClasses ++ t.failedClasses) ∧
    (xs.Perm ys →
      ((∃ e, p.report xs = .error e) ↔ ∃ e, p.report ys = .error e) ∧
      ∀ s t, p.report xs = .ok s → p.report ys = .ok t →
        s.isSuccess = t.isSuccess ∧ s.units.Perm t.units ∧ s.diagnostics.Perm t.diagnostics ∧
          s.failedClasses.Perm t.failedClasses) ∧
    ∀ r, p.report xs = .ok r →
      (r.isSuccess = true ↔ r.failedClasses = []) ∧
      (r.isSuccess = true ↔ ∀ d ∈ xs, ∀ told, p.outcome d ≠ .ok (.failed told)) ∧
      r.units = xs.filterMap p.unit? ∧
      ∀ d u, p.unit? d = some u ↔ p.outcome d = .ok (.generated u) := by
  refine ⟨exists_report_eq_error_iff, fun e => report_eq_error_iff.1, fun r hr => ?_,
    fun hperm => ⟨?_, fun s t hs ht => ?_⟩, fun r hr => ?_⟩
  · obtain ⟨hall, rfl⟩ := report_eq_ok_iff.1 hr
    obtain ⟨hxs, hys⟩ := List.forall_mem_append.1 hall
    refine ⟨_, _, report_eq_ok_iff.2 ⟨hxs, rfl⟩, report_eq_ok_iff.2 ⟨hys, rfl⟩, ?_⟩
    rw [summary_append]
    exact ⟨rfl, rfl, rfl⟩
  · rw [exists_report_eq_error_iff, exists_report_eq_error_iff]
    exact exists_congr fun d => by rw [hperm.mem_iff]
  · obtain ⟨-, rfl⟩ := report_eq_ok_iff.1 hs
    obtain ⟨-, rfl⟩ := report_eq_ok_iff.1 ht
    exact ⟨isSuccess_summary_of_perm hperm, hperm.filterMap _, hperm.flatMap_right _,
      (hperm.filter _).map _⟩
  · obtain ⟨-, rfl⟩ := report_eq_ok_iff.1 hr
    refine ⟨by rw [isSuccess_summary_iff, failedClasses_summary_eq_nil_iff], ?_, rfl,
      fun d u => unit?_eq_some_iff⟩
    rw [isSuccess_summary_iff]
    refine forall₂_congr fun d _ => ?_
    rw [← Bool.not_eq_true, fails_iff, not_exists]

-- A class that fails beside one that is generated, in both orders.
theorem report_of_classes_screen :
    ∃ p r s, ofSettings {} = .ok p ∧ p.report [screen, faulty] = .ok r ∧
      p.report [faulty, screen] = .ok s ∧ r.failedClasses = ["Screen"] ∧ r.isSuccess = false ∧
      s.isSuccess = false ∧ r.units.length = 1 ∧ r.units.Perm s.units := by
  have hcheck : (ofSettings {}).toOption.any (fun p =>
      (p.report [screen, faulty]).toOption.any fun r =>
        r.failedClasses == ["Screen"] && r.units.length == 1) = true := by decide +kernel
  obtain ⟨p, hp, r, hr, hfailed, hunits⟩ := by
    simpa only [Option.any_eq_true, Fallible.toOption_eq_some_iff, Bool.and_eq_true_iff,
      beq_iff_eq] using hcheck
  have hperm : [screen, faulty].Perm [faulty, screen] := .swap faulty screen []
  obtain ⟨-, -, -, hswap, hall⟩ := report_of_classes p [screen, faulty] [faulty, screen]
  obtain ⟨herror, hsame⟩ := hswap hperm
  obtain ⟨hsuccess, -⟩ := hall r hr
  have hfails : r.isSuccess = false := by
    rw [← Bool.not_eq_true, hsuccess, hfailed]
    simp
  cases hs : p.report [faulty, screen] with
  | error e =>
    obtain ⟨e', he'⟩ := herror.2 ⟨e, hs⟩
    rw [hr] at he'
    cases he'
  | ok s =>
    obtain ⟨hboth, hpermuted, -⟩ := hsame r s hr hs
    exact ⟨p, r, s, hp, hr, hs, hfailed, hfails, hboth ▸ hfails, hunits, hpermuted⟩

end Processor

end Lifecycle
