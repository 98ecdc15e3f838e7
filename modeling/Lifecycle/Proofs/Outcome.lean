import Lifecycle.Proofs.Fallible
import Lifecycle.Proofs.Registry
import Lifecycle.Proofs.Rules

namespace Lifecycle

namespace Declaration

theorem prefix_keep (subject : ClassPath) (kept : List Callback) (c : Callback) :
    kept <+: keep subject kept c := by
  unfold keep
  split
  · exact List.prefix_rfl
  · exact List.prefix_append kept [c]

theorem prefix_foldl_keep (subject : ClassPath) (callbacks kept : List Callback) :
    kept <+: callbacks.foldl (keep subject) kept := by
  induction callbacks generalizing kept with
  | nil => exact List.prefix_rfl
  | cons c rest ih => exact (prefix_keep subject kept c).trans (ih _)

-- The first callback is always kept.
theorem kept_eq_nil_iff (d : Declaration) : d.kept = [] ↔ d.callbacks = [] := by
  constructor
  · intro h
    cases hcs : d.callbacks with
    | nil => rfl
    | cons c rest =>
      have hkept := prefix_foldl_keep d.subject rest [c]
      have hfirst : d.kept = rest.foldl (keep d.subject) [c] := by
        simp [kept, hcs, keep]
      rw [← hfirst, h] at hkept
      simp at hkept
  · intro h
    simp [kept, h]

-- The entry of a class whose kept callbacks are all registered for the events they are bound to.
def registered? (d : Declaration) : Option Entry :=
  (Registry.ofAcceptances d.subject (d.kept.map .ofCallback)).toEntry

-- A callback is bound to some event, so that a class with callbacks has an entry.
theorem isEmpty_ofAcceptances_kept {d : Declaration} (h : d.kept ≠ []) :
    (Registry.ofAcceptances d.subject (d.kept.map .ofCallback)).isEmpty = false := by
  obtain ⟨c, hc⟩ := List.exists_mem_of_ne_nil _ h
  exact Registry.isEmpty_ofAcceptances_eq_false (List.mem_map_of_mem hc)
    (boundEvents_ne_nil c.events)

theorem exists_registered? {d : Declaration} (h : d.callbacks ≠ []) :
    ∃ entry, d.registered? = some entry :=
  ⟨_, (Registry.toEntry_eq_some_iff _ _).2
    ⟨isEmpty_ofAcceptances_kept (mt (kept_eq_nil_iff d).1 h), rfl⟩⟩

theorem subject_registered? {d : Declaration} {entry : Entry} (h : d.registered? = some entry) :
    entry.subject = d.subject := by
  obtain ⟨-, rfl⟩ := (Registry.toEntry_eq_some_iff _ _).1 h
  exact Registry.subject_foldl_register _ _

end Declaration

theorem Generator.unit_eq_ok_iff {g : Generator} {e : Entry} {u : SourceUnit} :
    g.unit e = .ok u ↔ ∃ a, g.adapter e = .ok a ∧
      u = { name := g.adapterName e.subject, moduleText := e.subject.moduleText
            body := Generator.bodyOf a } := by
  simp only [Generator.unit, Fallible.bind_eq_ok_iff, pure, Except.pure, Except.ok.injEq]
  exact exists_congr fun a => and_congr_right fun _ => eq_comm

namespace Processor

-- The processor that settings with a given runtime path describe.
def ofPath (s : Settings) (path : Path) : Processor where
  rules := Rules.ofSettings s
  generator := { runtime := path, adapterSuffix := s.adapterSuffix, callLogger := s.callLogger }

theorem ofSettings_eq_ok_iff {s : Settings} {p : Processor} :
    ofSettings s = .ok p ↔ ∃ path, runtimePath s.runtimePath = .ok path ∧ p = ofPath s path := by
  cases h : runtimePath s.runtimePath <;>
    simp [ofSettings, Generator.ofSettings, ofPath, h, bind, Except.bind, pure, Except.pure,
      eq_comm]

theorem outcome_of_no_callbacks (p : Processor) {d : Declaration} (h : d.callbacks = []) :
    p.outcome d = .ok .skipped := by
  have hkept : d.kept = [] := (Declaration.kept_eq_nil_iff d).2 h
  simp [outcome, hkept, pure, Except.pure]

theorem outcome_of_rejected {p : Processor} {d : Declaration} (h : p.rules.rejected d.kept ≠ []) :
    p.outcome d = .ok (.failed (judgeAll p.rules d.kept).1) := by
  have hkept : d.kept ≠ [] := by
    rintro hnil
    simp [hnil, Rules.rejected] at h
  have htold : (judgeAll p.rules d.kept).1 ≠ [] := mt (judgeAll_fst_eq_nil_iff _ _).1 h
  simp [outcome, hkept, htold, pure, Except.pure]

theorem outcome_of_accepted {p : Processor} {d : Declaration} {entry : Entry}
    (h : p.rules.rejected d.kept = []) (hentry : d.registered? = some entry) :
    p.outcome d = (p.generator.unit entry).map .generated := by
  have hkept : d.kept ≠ [] := by
    intro hnil
    simp [Declaration.registered?, hnil, Registry.ofAcceptances, Registry.toEntry, Registry.isEmpty]
      at hentry
  have htold : (judgeAll p.rules d.kept).1 = [] := (judgeAll_fst_eq_nil_iff _ _).2 h
  have hsome :
      (Registry.ofAcceptances d.subject (judgeAll p.rules d.kept).2).toEntry = some entry := by
    rw [judgeAll_snd_of_none_rejected h]
    exact hentry
  simp only [outcome, List.isEmpty_iff, hkept, htold, hsome]
  cases p.generator.unit entry <;> rfl

theorem outcome_eq_skipped_iff (p : Processor) (d : Declaration) :
    p.outcome d = .ok .skipped ↔ d.callbacks = [] := by
  refine ⟨fun h => ?_, outcome_of_no_callbacks p⟩
  by_contra hne
  by_cases hrejected : p.rules.rejected d.kept = []
  · obtain ⟨entry, hentry⟩ := Declaration.exists_registered? hne
    rw [outcome_of_accepted hrejected hentry] at h
    cases hunit : p.generator.unit entry <;> simp [hunit, Except.map] at h
  · rw [outcome_of_rejected hrejected] at h
    simp at h

theorem outcome_eq_failed_iff (p : Processor) (d : Declaration) (told : List Diagnostic) :
    p.outcome d = .ok (.failed told) ↔
      p.rules.rejected d.kept ≠ [] ∧
        List.Forall₂ (Diagnostic.Tells p.rules) (p.rules.rejected d.kept) told := by
  by_cases hrejected : p.rules.rejected d.kept = []
  · simp only [hrejected, ne_eq, not_true_eq_false, false_and, iff_false]
    by_cases hne : d.callbacks = []
    · simp [outcome_of_no_callbacks p hne]
    · obtain ⟨entry, hentry⟩ := Declaration.exists_registered? hne
      rw [outcome_of_accepted hrejected hentry]
      cases p.generator.unit entry <;> simp [Except.map]
  · have htold := judgeAll_fst p.rules d.kept
    rw [outcome_of_rejected hrejected]
    simp only [Except.ok.injEq, Outcome.failed.injEq, ne_eq, hrejected, not_false_eq_true, true_and]
    constructor
    · rintro rfl
      exact htold
    · exact List.right_unique_forall₂' (Diagnostic.rightUnique_tells p.rules) htold

theorem outcome_eq_generated_iff (p : Processor) (d : Declaration) (u : SourceUnit) :
    p.outcome d = .ok (.generated u) ↔
      p.rules.rejected d.kept = [] ∧
        ∃ entry, d.registered? = some entry ∧ p.generator.unit entry = .ok u := by
  by_cases hrejected : p.rules.rejected d.kept = []
  · by_cases hne : d.callbacks = []
    · have hkept : d.kept = [] := (Declaration.kept_eq_nil_iff d).2 hne
      simp [outcome_of_no_callbacks p hne, Declaration.registered?, hkept, Registry.ofAcceptances,
        Registry.toEntry, Registry.isEmpty]
    · obtain ⟨entry, hentry⟩ := Declaration.exists_registered? hne
      rw [outcome_of_accepted hrejected hentry]
      simp [hrejected, hentry, Fallible.map_eq_ok_iff]
  · simp [outcome_of_rejected hrejected, hrejected]

theorem registered?_eq_some_iff (p : Processor) (d : Declaration) (entry : Entry) :
    p.registered? d = some entry ↔ p.rules.rejected d.kept = [] ∧ d.registered? = some entry := by
  by_cases hrejected : p.rules.rejected d.kept = []
  · have htold := (judgeAll_fst_eq_nil_iff p.rules d.kept).2 hrejected
    simp [registered?, Declaration.registered?, htold, judgeAll_snd_of_none_rejected hrejected,
      hrejected]
  · have htold := mt (judgeAll_fst_eq_nil_iff p.rules d.kept).1 hrejected
    simp [registered?, htold, hrejected]

theorem adapter?_eq_some_iff (p : Processor) (d : Declaration) (a : Adapter) :
    p.adapter? d = some a ↔
      p.rules.rejected d.kept = [] ∧
        ∃ entry, d.registered? = some entry ∧ p.generator.adapter entry = .ok a := by
  simp only [adapter?, bind, Option.bind_eq_some_iff, registered?_eq_some_iff,
    Fallible.toOption_eq_some_iff]
  constructor
  · rintro ⟨entry, ⟨hrejected, hentry⟩, ha⟩
    exact ⟨hrejected, entry, hentry, ha⟩
  · rintro ⟨hrejected, entry, hentry, ha⟩
    exact ⟨entry, ⟨hrejected, hentry⟩, ha⟩

-- A generated source text is the code of the adapter of its class.
theorem outcome_eq_generated_iff_adapter? (p : Processor) (d : Declaration) (u : SourceUnit) :
    p.outcome d = .ok (.generated u) ↔ ∃ a, p.adapter? d = some a ∧
      u = { name := p.generator.adapterName d.subject, moduleText := d.subject.moduleText
            body := Generator.bodyOf a } := by
  simp only [outcome_eq_generated_iff, adapter?_eq_some_iff, Generator.unit_eq_ok_iff]
  constructor
  · rintro ⟨hrejected, entry, hentry, a, ha, rfl⟩
    rw [← Declaration.subject_registered? hentry]
    exact ⟨a, ⟨hrejected, entry, hentry, ha⟩, rfl⟩
  · rintro ⟨a, ⟨hrejected, entry, hentry, ha⟩, rfl⟩
    rw [← Declaration.subject_registered? hentry]
    exact ⟨hrejected, entry, hentry, a, ha, rfl⟩

-- Whether a class gets a source text under some settings.
def generates (s : Settings) (d : Declaration) : Bool :=
  match ofSettings s with
  | .ok p =>
    match p.outcome d with
    | .ok (.generated _) => true
    | _ => false
  | .error _ => false

theorem exists_generated {s : Settings} {d : Declaration} (h : generates s d = true) :
    ∃ p u, ofSettings s = .ok p ∧ p.outcome d = .ok (.generated u) := by
  unfold generates at h
  split at h
  · rename_i p hp
    split at h
    · rename_i u hu
      exact ⟨p, u, hp, hu⟩
    · simp at h
  · simp at h

-- Settings whose runtime path can be read decide what comes of a class. It is skipped if it has no
-- callbacks at all. It fails if some kept callback breaks a rule, with one diagnostic for each of
-- them. In all other cases there is an entry of all kept callbacks for the generator; the registry
-- that is filled after the judgement is never found empty.
theorem outcome_by_rejected (s : Settings) (hpath : (runtimePath s.runtimePath).isOk = true) :
    ∃ p, ofSettings s = .ok p ∧ ∀ d : Declaration,
      (p.outcome d = .ok .skipped ↔ d.callbacks = []) ∧
      (∀ told, p.outcome d = .ok (.failed told) ↔
        (Rules.ofSettings s).rejected d.kept ≠ [] ∧
          List.Forall₂ (Diagnostic.Tells (Rules.ofSettings s))
            ((Rules.ofSettings s).rejected d.kept) told) ∧
      ((Rules.ofSettings s).rejected d.kept ≠ [] → ∃ told, p.outcome d = .ok (.failed told)) ∧
      (d.callbacks ≠ [] → (Rules.ofSettings s).rejected d.kept = [] →
        ∃ entry, d.registered? = some entry ∧
          p.outcome d = (p.generator.unit entry).map .generated) ∧
      (d.kept ≠ [] → (judgeAll p.rules d.kept).1 = [] →
        (Registry.ofAcceptances d.subject (judgeAll p.rules d.kept).2).isEmpty = false) := by
  cases hrt : runtimePath s.runtimePath with
  | error e => simp [hrt, Except.isOk, Except.toBool] at hpath
  | ok path =>
    refine ⟨_, ofSettings_eq_ok_iff.2 ⟨path, hrt, rfl⟩, fun d => ⟨outcome_eq_skipped_iff _ d,
      outcome_eq_failed_iff _ d, fun hrejected => ⟨_, outcome_of_rejected hrejected⟩,
      fun hne hrejected => ?_, fun hkept htold => ?_⟩⟩
    · obtain ⟨entry, hentry⟩ := Declaration.exists_registered? hne
      exact ⟨entry, hentry, outcome_of_accepted hrejected hentry⟩
    · rw [judgeAll_snd_of_none_rejected ((judgeAll_fst_eq_nil_iff _ _).1 htold)]
      exact Declaration.isEmpty_ofAcceptances_kept hkept

-- A class whose own callbacks break all rules, the second one two at once, and whose inherited
-- callback is overridden.
def faulty : Declaration where
  subject := { name := "Screen" }
  callbacks :=
    [{ id := ⟨4⟩, declaringClass := { name := "Screen" }, name := "many"
       params := [{ name := "LifecycleOwner" }, { name := "LifecycleEvent" }, { name := "u8" }] },
      { id := ⟨4⟩, declaringClass := { name := "Screen" }, name := "both"
        params := [{ name := "u8" }, { name := "u8" }] },
      { id := ⟨6⟩, declaringClass := { name := "Screen" }, name := "fine" },
      { id := ⟨7⟩, declaringClass := { modules := ["ui"], name := "Base" }, name := "late"
        params := [{ name := "&Activity", capabilities := Text.NameSet.ofList ["LifecycleOwner"] },
          { name := "&LifecycleEvent" }]
        location := some { file := "base.rs", line := 3, column := 5 } },
      { id := ⟨8⟩, declaringClass := { modules := ["ui"], name := "Base" }, name := "both"
        params := [{ name := "u8" }, { name := "u8" }] }]

theorem outcome_by_rejected_faulty :
    (runtimePath ({} : Settings).runtimePath).isOk = true ∧
      ∃ p, ofSettings {} = .ok p ∧ p.outcome faulty = .ok (.failed
        [{ id := ⟨4⟩, className := "Screen", callbackName := "many", location := none
           violation := .tooManyArguments },
          { id := ⟨4⟩, className := "Screen", callbackName := "both", location := none
            violation := .invalidFirstArgument },
          { id := ⟨7⟩, className := "ui::Base", callbackName := "late"
            location := some { file := "base.rs", line := 3, column := 5 }
            violation := .invalidSecondArgument }]) := by
  have hpath : (runtimePath ({} : Settings).runtimePath).isOk = true := by decide +kernel
  obtain ⟨p, hp, houtcome⟩ := outcome_by_rejected {} hpath
  refine ⟨hpath, p, hp, ((houtcome faulty).2.1 _).2 ⟨by decide +kernel, ?_⟩⟩
  exact .cons ⟨rfl, rfl, rfl, rfl, by decide +kernel⟩ <|
    .cons ⟨rfl, rfl, rfl, rfl, by decide +kernel⟩ <|
      .cons ⟨rfl, rfl, rfl, rfl, by decide +kernel⟩ .nil

end Processor

end Lifecycle
