import Lifecycle.Proofs.Report
import Lifecycle.Proofs.Token.Names

namespace Lifecycle

section Joined

-- The text after a module that others follow.
def ClassPath.furtherText : List (List Char) → List Char
  | [] => []
  | m :: modules => ':' :: ':' :: [':', ':'].intercalate (m :: modules)

open ClassPath

theorem intercalate_cons (m : List Char) (modules : List (List Char)) :
    [':', ':'].intercalate (m :: modules) = m ++ furtherText modules := by
  cases modules with
  | nil => simp [furtherText]
  | cons n modules => simp [furtherText]

theorem head_furtherText (modules : List (List Char)) : ∀ c ∈ (furtherText modules).head?, c = ':' := by
  cases modules <;> simp [furtherText]

-- A text up to its first colon, and what follows it.
theorem append_inj_of_colon {a b t u : List Char} (ha : ':' ∉ a) (hb : ':' ∉ b)
    (ht : ∀ c ∈ t.head?, c = ':') (hu : ∀ c ∈ u.head?, c = ':') (h : a ++ t = b ++ u) :
    a = b ∧ t = u := by
  have htake : ∀ {x y : List Char}, ':' ∉ x → (∀ c ∈ y.head?, c = ':') →
      (x ++ y).takeWhile (· != ':') = x := by
    intro x y hx hy
    refine takeWhile_append_of_all (fun c hc => ?_) fun c hc => by simp [hy c hc]
    simpa using ne_of_mem_of_not_mem hc hx
  have hab : a = b := by rw [← htake ha ht, h, htake hb hu]
  subst hab
  exact ⟨rfl, List.append_cancel_left h⟩

theorem intercalate_injective {xs ys : List (List Char)} (hxs : ∀ x ∈ xs, x ≠ [] ∧ ':' ∉ x)
    (hys : ∀ y ∈ ys, y ≠ [] ∧ ':' ∉ y)
    (h : [':', ':'].intercalate xs = [':', ':'].intercalate ys) : xs = ys := by
  induction xs generalizing ys with
  | nil =>
    cases ys with
    | nil => rfl
    | cons y ys =>
      rw [intercalate_cons, List.intercalate_nil] at h
      exact absurd (List.append_eq_nil_iff.1 h.symm).1 (hys y (by simp)).1
  | cons x xs ih =>
    obtain ⟨⟨hne, hx⟩, hrest⟩ := List.forall_mem_cons.1 hxs
    cases ys with
    | nil =>
      rw [intercalate_cons, List.intercalate_nil] at h
      exact absurd (List.append_eq_nil_iff.1 h).1 hne
    | cons y ys =>
      obtain ⟨⟨-, hy⟩, hrest'⟩ := List.forall_mem_cons.1 hys
      rw [intercalate_cons, intercalate_cons] at h
      obtain ⟨rfl, htail⟩ :=
        append_inj_of_colon hx hy (head_furtherText xs) (head_furtherText ys) h
      have hjoined : [':', ':'].intercalate xs = [':', ':'].intercalate ys := by
        cases xs <;> cases ys <;> simp_all [furtherText]
      rw [ih hrest hrest' hjoined]

end Joined

namespace ClassPath

-- Whether the modules around a class can be told apart once they are joined.
def IsSegmented (c : ClassPath) : Prop :=
  ∀ m ∈ c.modules, m ≠ "" ∧ ':' ∉ m.toList

instance (c : ClassPath) : Decidable c.IsSegmented :=
  inferInstanceAs (Decidable (∀ m ∈ c.modules, _))

theorem toList_moduleText (c : ClassPath) :
    c.moduleText.toList = [':', ':'].intercalate (c.modules.map String.toList) :=
  String.toList_intercalate

theorem modules_eq_of_moduleText_eq {c d : ClassPath} (hc : c.IsSegmented) (hd : d.IsSegmented)
    (h : c.moduleText = d.moduleText) : c.modules = d.modules := by
  have hsegments : ∀ {e : ClassPath}, e.IsSegmented →
      ∀ m ∈ e.modules.map String.toList, m ≠ [] ∧ ':' ∉ m := by
    intro e he
    refine List.forall_mem_map.2 fun m hm => ⟨fun hnil => (he m hm).1 ?_, (he m hm).2⟩
    exact String.toList_inj.1 hnil
  have htext := congrArg String.toList h
  rw [toList_moduleText, toList_moduleText] at htext
  exact List.map_injective_iff.2 (fun _ _ => String.toList_inj.1)
    (intercalate_injective (hsegments hc) (hsegments hd) htext)

theorem moduleText_isEmpty_iff {c : ClassPath} (hc : c.IsSegmented) :
    c.moduleText.isEmpty = c.modules.isEmpty := by
  rw [Bool.eq_iff_iff, String.isEmpty_iff, List.isEmpty_iff]
  constructor
  · exact modules_eq_of_moduleText_eq (d := { name := c.name }) hc (by simp [IsSegmented])
  · intro h
    rw [moduleText, h]
    rfl

end ClassPath

theorem Generator.adapterName_inj {g : Generator} {c d : ClassPath} :
    g.adapterName c = g.adapterName d ↔ c.name = d.name :=
  String.append_left_inj _

namespace Processor

variable {p : Processor}

-- The source text of a class has the name of its adapter and stands in the modules of the class.
theorem names_unit? {d : Declaration} {u : SourceUnit} (h : p.unit? d = some u) :
    u.name = p.generator.adapterName d.subject ∧ u.moduleText = d.subject.moduleText := by
  obtain ⟨a, -, rfl⟩ := (outcome_eq_generated_iff_adapter? p d u).1 (unit?_eq_some_iff.1 h)
  exact ⟨rfl, rfl⟩

-- The name and the modules of a source text tell which class it belongs to.
theorem subject_eq_iff {d : Declaration} {u : SourceUnit} (h : p.unit? d = some u)
    (hd : d.subject.IsSegmented) {c : ClassPath} (hc : c.IsSegmented) :
    (u.name = p.generator.adapterName c ∧ u.moduleText = c.moduleText) ↔ d.subject = c := by
  obtain ⟨hname, htext⟩ := names_unit? h
  rw [hname, htext, Generator.adapterName_inj]
  constructor
  · rintro ⟨hsame, hmodules⟩
    have heq := ClassPath.modules_eq_of_moduleText_eq hd hc hmodules
    cases hsubject : d.subject
    cases c
    simp_all
  · rintro rfl
    exact ⟨rfl, rfl⟩

-- What is found for a class comes from the first declaration of the class.
theorem unitFor?_summary {ds : List Declaration} (hdistinct : (ds.map (·.subject)).Nodup)
    (hsegmented : ∀ d ∈ ds, d.subject.IsSegmented) {c : ClassPath} (hc : c.IsSegmented) :
    (p.summary ds).unitFor? c p.generator = (ds.find? (·.subject = c)).bind p.unit? := by
  induction ds with
  | nil => rfl
  | cons d rest ih =>
    obtain ⟨hnew, hdistinct⟩ := List.nodup_cons.1 hdistinct
    obtain ⟨hd, hsegmented⟩ := List.forall_mem_cons.1 hsegmented
    have hrest := ih hdistinct hsegmented
    simp only [Report.unitFor?, summary] at hrest ⊢
    cases hunit : p.unit? d with
    | none =>
      rw [List.filterMap_cons_none hunit, hrest, List.find?_cons]
      by_cases hsubject : d.subject = c
      · have hnone : rest.find? (·.subject = c) = none := by
          refine List.find?_eq_none.2 fun e he hsame => hnew ?_
          exact List.mem_map.2 ⟨e, he, (of_decide_eq_true hsame).trans hsubject.symm⟩
        simp [hsubject, hnone, hunit]
      · simp [hsubject]
    | some u =>
      have hiff := subject_eq_iff hunit hd hc
      rw [List.filterMap_cons_some hunit, List.find?_cons, List.find?_cons]
      by_cases hsubject : d.subject = c
      · obtain ⟨hname, htext⟩ := hiff.2 hsubject
        simp [hsubject, hname, htext, hunit]
      · have hother : (u.name == p.generator.adapterName c && u.moduleText == c.moduleText) = false := by
          simpa [← Bool.not_eq_true] using mt hiff.1 hsubject
        simp [hsubject, hother, hrest]

theorem find?_subject {ds : List Declaration} (hdistinct : (ds.map (·.subject)).Nodup)
    {d : Declaration} (hd : d ∈ ds) : ds.find? (·.subject = d.subject) = some d := by
  obtain ⟨e, he⟩ : ∃ e, ds.find? (·.subject = d.subject) = some e :=
    Option.isSome_iff_exists.1 (List.find?_isSome.2 ⟨d, hd, by simp⟩)
  have hsame : e.subject = d.subject := by simpa using List.find?_some he
  rw [he, List.inj_on_of_nodup_map hdistinct (List.mem_of_find?_eq_some he) hd hsame]

theorem pairwise_units_summary {ds : List Declaration} (hdistinct : (ds.map (·.subject)).Nodup)
    (hsegmented : ∀ d ∈ ds, d.subject.IsSegmented) :
    (p.summary ds).units.Pairwise fun u v => ¬ (u.name = v.name ∧ u.moduleText = v.moduleText) := by
  refine List.pairwise_filterMap.2 ((List.pairwise_map.1 hdistinct).imp_of_mem ?_)
  rintro d e hd he hne u hu v hv ⟨hname, htext⟩
  obtain ⟨hvname, hvtext⟩ := names_unit? hv
  refine hne ((subject_eq_iff hu (hsegmented d hd) (hsegmented e he)).1 ?_)
  exact ⟨hname.trans hvname, htext.trans hvtext⟩

theorem qualifiedName_unit? {d : Declaration} {u : SourceUnit} (h : p.unit? d = some u)
    (hd : d.subject.IsSegmented) :
    u.qualifiedName = d.subject.qualifiedName ++ p.generator.adapterSuffix := by
  obtain ⟨hname, htext⟩ := names_unit? h
  rw [SourceUnit.qualifiedName, ClassPath.qualifiedName, hname, htext,
    ClassPath.moduleText_isEmpty_iff hd]
  split
  · rfl
  · simp [ClassPath.qualify, Generator.adapterName, String.append_assoc]

-- A class finds its own source text, and only if it has one. No two classes have source texts of one
-- name in the same modules, and each source text is called by its class and the suffix of adapters.
theorem unitFor_of_report (p : Processor) (ds : List Declaration) (r : Report)
    (hreport : p.report ds = .ok r) (hdistinct : (ds.map (·.subject)).Nodup)
    (hsegmented : ∀ d ∈ ds, d.subject.IsSegmented) :
    (∀ d ∈ ds,
      (∀ u, p.outcome d = .ok (.generated u) → r.unitFor? d.subject p.generator = some u ∧
        u.qualifiedName = d.subject.qualifiedName ++ p.generator.adapterSuffix) ∧
      (p.outcome d = .ok .skipped → r.unitFor? d.subject p.generator = none) ∧
      ∀ told, p.outcome d = .ok (.failed told) → r.unitFor? d.subject p.generator = none) ∧
    (∀ c : ClassPath, c.IsSegmented → c ∉ ds.map (·.subject) →
      r.unitFor? c p.generator = none) ∧
    r.units.Pairwise fun u v => ¬ (u.name = v.name ∧ u.moduleText = v.moduleText) := by
  obtain ⟨-, rfl⟩ := report_eq_ok_iff.1 hreport
  have hown : ∀ d ∈ ds, (p.summary ds).unitFor? d.subject p.generator = p.unit? d := by
    intro d hd
    rw [unitFor?_summary hdistinct hsegmented (hsegmented d hd), find?_subject hdistinct hd]
    rfl
  refine ⟨fun d hd => ⟨fun u hu => ?_, fun h => ?_, fun told h => ?_⟩, fun c hc hnew => ?_,
    pairwise_units_summary hdistinct hsegmented⟩
  · have hunit := unit?_eq_some_iff.2 hu
    exact ⟨(hown d hd).trans hunit, qualifiedName_unit? hunit (hsegmented d hd)⟩
  · rw [hown d hd, unit?, h]
  · rw [hown d hd, unit?, h]
  · have hnone : ds.find? (·.subject = c) = none := by
      refine List.find?_eq_none.2 fun d hd hsame => hnew ?_
      exact List.mem_map.2 ⟨d, hd, of_decide_eq_true hsame⟩
    rw [unitFor?_summary hdistinct hsegmented hc, hnone]
    rfl

-- Classes of one name in different modules, one of them without callbacks, and one that fails.
def screens : List Declaration :=
  [screen, { faulty with subject := { name := "Other" } },
    { subject := { modules := ["ui"], name := "Screen" }
      callbacks := [{ declaringClass := { modules := ["ui"], name := "Screen" }, name := "shown" }] },
    { subject := { modules := ["ui", "main"], name := "Screen" } }]

theorem unitFor_of_report_screens :
    ∃ p r u, ofSettings {} = .ok p ∧ p.report screens = .ok r ∧
      (screens.map (·.subject)).Nodup ∧ (∀ d ∈ screens, d.subject.IsSegmented) ∧
      r.unitFor? { modules := ["ui"], name := "Screen" } p.generator = some u ∧
      u.qualifiedName = "ui::ScreenLifecycleAdapter" ∧
      r.unitFor? { modules := ["ui", "main"], name := "Screen" } p.generator = none ∧
      r.unitFor? { name := "Other" } p.generator = none ∧
      r.unitFor? { modules := ["u", "i"], name := "Screen" } p.generator = none := by
  have hdistinct : (screens.map (·.subject)).Nodup := by decide +kernel
  have hsegmented : ∀ d ∈ screens, d.subject.IsSegmented := by decide +kernel
  have hcheck : (ofSettings {}).toOption.any (fun p =>
      p.generator.adapterSuffix == "LifecycleAdapter" && (p.report screens).toOption.isSome &&
        screens.map p.fails == [false, true, false, false] &&
          (screens[2]?.bind p.unit?).isSome) = true := by decide +kernel
  obtain ⟨p, hp, ⟨⟨hsuffix, r, hr⟩, hfails⟩, u, hu⟩ := by
    simpa only [Option.any_eq_true, Fallible.toOption_eq_some_iff, Bool.and_eq_true_iff,
      beq_iff_eq, Option.isSome_iff_exists] using hcheck
  obtain ⟨hall, hother, -⟩ := unitFor_of_report p screens r hr hdistinct hsegmented
  simp only [screens, List.forall_mem_cons] at hall
  obtain ⟨-, hfailed, hgenerated, hskipped, -⟩ := hall
  obtain ⟨told, htold⟩ := fails_iff.1 (List.cons.inj (List.cons.inj hfails).2).1
  obtain ⟨hfound, hname⟩ := hgenerated.1 u (unit?_eq_some_iff.1 hu)
  refine ⟨p, r, u, hp, hr, hdistinct, hsegmented, hfound, ?_, hskipped.2.1 ?_,
    hfailed.2.2 told htold, hother _ (by decide +kernel) (by decide +kernel)⟩
  · rw [hname, hsuffix]
    decide +kernel
  · exact (outcome_eq_skipped_iff p _).2 rfl

end Processor

end Lifecycle
