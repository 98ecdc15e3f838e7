import Lifecycle.Proofs.Dispatch
import Lifecycle.Proofs.Extraction

namespace Lifecycle

-- Whether a mark, taken alone, binds its method to an event that is dispatched.
def Attribute.Binds (a : Attribute) (e : Event) : Prop :=
  a.listedEvents = [] ∨ .ok .onAny ∈ a.listedEvents ∨ .ok e ∈ a.listedEvents

namespace Method

-- Whether the marks of a method bind it to each event.
def TakesAny (m : Method) : Prop := m.listed = [] ∨ .onAny ∈ m.listed

-- Whether they bind it to an event by the name of the event.
def Names (m : Method) (e : Event) : Prop :=
  m.listed ≠ [] ∧ .onAny ∉ m.listed ∧ e ∈ m.listed

instance (m : Method) : Decidable m.TakesAny := inferInstanceAs (Decidable (_ ∨ _))

instance (m : Method) (e : Event) : Decidable (m.Names e) := inferInstanceAs (Decidable (_ ∧ _))

-- Whether a mark without events says no more than all marks together.
def MarksAgree (m : Method) : Prop :=
  (∃ a ∈ m.marks, a.listedEvents = []) → m.TakesAny ∨ ∀ e ∈ Event.dispatchable, e ∈ m.listed

instance (m : Method) : Decidable m.MarksAgree := inferInstanceAs (Decidable (_ → _))

theorem mem_listed_iff {m : Method} {e : Event} :
    e ∈ m.listed ↔ ∃ a ∈ m.marks, .ok e ∈ a.listedEvents := by
  simp [listed, mem_resultsOf_iff]

-- Marks without faults that list something list an event.
theorem listed_eq_nil_iff {m : Method} (hfaults : ∀ a ∈ m.marks, faultsOf a.listedEvents = []) :
    m.listed = [] ↔ ∀ a ∈ m.marks, a.listedEvents = [] := by
  simp only [List.eq_nil_iff_forall_not_mem, mem_listed_iff, not_exists, not_and]
  constructor
  · intro h a ha r hr
    obtain ⟨e, rfl⟩ := faultsOf_eq_nil_iff.1 (hfaults a ha) r hr
    exact h e a ha hr
  · exact fun h e a ha => h a ha (.ok e)

-- What the marks of a method bind it to one by one, in terms of what they list together.
theorem exists_binds_iff {m : Method} {e : Event} :
    (∃ a ∈ m.marks, a.Binds e) ↔
      (∃ a ∈ m.marks, a.listedEvents = []) ∨ .onAny ∈ m.listed ∨ e ∈ m.listed := by
  simp only [Attribute.Binds, mem_listed_iff, ← exists_or, ← and_or_left]

-- The method takes what its marks bind it to one by one exactly if they agree.
theorem takes_iff_binds_iff {m : Method} (hmarks : m.marks ≠ [])
    (hfaults : ∀ a ∈ m.marks, faultsOf a.listedEvents = []) :
    (∀ e ∈ Event.dispatchable, m.Names e ∨ m.TakesAny ↔ ∃ a ∈ m.marks, a.Binds e) ↔
      m.MarksAgree := by
  have htakes : ∀ e, m.Names e ∨ m.TakesAny ↔ m.TakesAny ∨ e ∈ m.listed := by
    intro e
    unfold Names TakesAny
    tauto
  have hnone : m.listed = [] → ∃ a ∈ m.marks, a.listedEvents = [] := by
    intro hnil
    obtain ⟨a, ha⟩ := List.exists_mem_of_ne_nil _ hmarks
    exact ⟨a, ha, (listed_eq_nil_iff hfaults).1 hnil a ha⟩
  simp only [htakes, exists_binds_iff]
  constructor
  · intro h hbare
    by_cases hany : m.TakesAny
    · exact .inl hany
    · exact .inr fun e he => ((h e he).2 (.inl hbare)).resolve_left hany
  · intro hagree e he
    constructor
    · rintro ((hnil | hany) | hlisted)
      · exact .inl (hnone hnil)
      · exact .inr (.inl hany)
      · exact .inr (.inr hlisted)
    · rintro (hbare | hany | hlisted)
      · exact (hagree hbare).imp_right fun hall => hall e he
      · exact .inl (.inr hany)
      · exact .inr hlisted

theorem DeclaredAs.names_iff {subject : ClassPath} {m : Method} {c : Callback}
    (h : m.DeclaredAs subject c) (e : Event) : c.Names e ↔ m.Names e := by
  rw [Callback.Names, Names, h.events]

theorem DeclaredAs.takesAny_iff {subject : ClassPath} {m : Method} {c : Callback}
    (h : m.DeclaredAs subject c) : c.TakesAny ↔ m.TakesAny := by
  rw [Callback.TakesAny, TakesAny, h.events]

end Method

namespace ImplBlock

-- The marked methods that an event calls, in the order of the calls.
def calledFor (b : ImplBlock) (e : Event) : List Method :=
  b.marked.filter (·.Names e) ++ b.marked.filter (·.TakesAny)

theorem mem_calledFor_iff {b : ImplBlock} {m : Method} (hm : m ∈ b.marked) (e : Event) :
    m ∈ b.calledFor e ↔ m.Names e ∨ m.TakesAny := by
  simp [calledFor, hm]

-- The methods that an event calls are the callbacks that it calls.
theorem forall₂_calledFor {b : ImplBlock} {d : Declaration} (hfaults : b.extract.faults = [])
    (hd : b.extract.declaration = some d) (e : Event) :
    List.Forall₂ (Method.DeclaredAs d.subject) (b.calledFor e) (d.calledFor e) := by
  have hall := forall₂_declaredAs hfaults hd
  rw [calledFor, Declaration.calledFor, kept_eq_callbacks hd]
  refine List.rel_append (List.rel_filter ?_ hall) (List.rel_filter ?_ hall)
  · intro m c h
    simp only [decide_eq_true_iff, h.names_iff]
  · intro m c h
    simp only [decide_eq_true_iff, h.takesAny_iff]

end ImplBlock

namespace Processor

-- The calls for an event go to the methods whose marks bind it, all marks of a method taken
-- together. These are the events that its marks bind one by one exactly if the marks agree.
theorem dispatch_of_marks {p : Processor} {b : ImplBlock} {d : Declaration} {u : SourceUnit}
    (hfaults : b.extract.faults = []) (hd : b.extract.declaration = some d)
    (hu : p.outcome d = .ok (.generated u)) :
    ∃ a, p.adapter? d = some a ∧ u.body = Generator.bodyOf a ∧
      (∀ e ∈ Event.dispatchable,
        List.Forall₂ (fun m k => ∃ c, m.DeclaredAs d.subject c ∧ Call.Serves e c k)
          (b.calledFor e) (dispatch a e)) ∧
      ∀ m ∈ b.marked,
        (∀ e ∈ Event.dispatchable, m ∈ b.calledFor e ↔ ∃ mark ∈ m.marks, mark.Binds e) ↔
          m.MarksAgree := by
  obtain ⟨a, ha, rfl⟩ := (outcome_eq_generated_iff_adapter? p d u).1 hu
  refine ⟨a, ha, rfl, fun e he => forall₂_comp (ImplBlock.forall₂_calledFor hfaults hd e)
    (forall₂_serves_dispatch ha he), fun m hm => ?_⟩
  obtain ⟨-, -, hitems⟩ := ImplBlock.declaration_of_no_faults hfaults
  simp only [ImplBlock.mem_calledFor_iff hm]
  exact Method.takes_iff_binds_iff (ImplBlock.marks_ne_nil_of_mem_marked hm)
    (Method.faultsOf_listedEvents (hitems _ (ImplBlock.method_mem_items_of_mem_marked hm)))

-- A block of a method that is marked for each event twice, and one that two marks bind to events.
def twiceMarked : String :=
  "impl Screen \x7b
     #[on_lifecycle_event] #[on_lifecycle_event()] fn seen(&self) \x7b\x7d
     #[on_lifecycle_event(OnStop, OnStart)] #[on_lifecycle_event(OnStop)] fn moved(&self) \x7b\x7d
   \x7d"

set_option maxRecDepth 2000 in
theorem dispatch_of_marks_twiceMarked :
    ∃ b d p u a, ImplBlock.ofText? twiceMarked = some b ∧ b.extract.faults = [] ∧
      b.extract.declaration = some d ∧ ofSettings {} = .ok p ∧
      p.outcome d = .ok (.generated u) ∧ p.adapter? d = some a ∧
      List.Forall₂ (fun m k => ∃ c, m.DeclaredAs d.subject c ∧ Call.Serves .onStart c k)
        (b.calledFor .onStart) (dispatch a .onStart) ∧
      b.marked.length = 2 ∧
      ∀ m ∈ b.marked, ∀ e ∈ Event.dispatchable,
        m ∈ b.calledFor e ↔ ∃ mark ∈ m.marks, mark.Binds e := by
  have hcheck : (ImplBlock.ofText? twiceMarked).any (fun b =>
      b.generates {} && decide (b.marked.length = 2 ∧ ∀ m ∈ b.marked, m.MarksAgree)) = true := by
    have hchars : twiceMarked.toList = _ := String.toList_ofList
    rw [ImplBlock.ofText?_eq hchars]
    decide +kernel
  obtain ⟨b, hb, hgenerates, hmarked⟩ := by
    simpa only [Option.any_eq_true, Bool.and_eq_true_iff, decide_eq_true_iff] using hcheck
  obtain ⟨d, p, u, hfaults, hd, hp, hu⟩ := ImplBlock.exists_generated hgenerates
  obtain ⟨a, ha, -, hcalls, hmethods⟩ := dispatch_of_marks hfaults hd hu
  exact ⟨b, d, p, u, a, hb, hfaults, hd, hp, hu, ha, hcalls .onStart (by decide), hmarked.1,
    fun m hm => (hmethods m hm).2 (hmarked.2 m hm)⟩

-- A block of a method with a mark for each event beside one for a single event.
def bareBesideList : String :=
  "impl Screen \x7b #[on_lifecycle_event] #[on_lifecycle_event(OnStop)] fn seen(&self) \x7b\x7d \x7d"

-- The mark that lists an event takes the other events from the mark that lists none.
theorem no_call_of_bareBesideList :
    ∃ b d p u a, ImplBlock.ofText? bareBesideList = some b ∧ b.extract.faults = [] ∧
      b.extract.declaration = some d ∧ ofSettings {} = .ok p ∧
      p.outcome d = .ok (.generated u) ∧ p.adapter? d = some a ∧ dispatch a .onStart = [] ∧
      ∃ m ∈ b.marked, ∃ mark ∈ m.marks, mark.Binds .onStart := by
  have hcheck : (ImplBlock.ofText? bareBesideList).any (fun b =>
      b.generates {} && (b.calledFor .onStart).isEmpty &&
        decide (∃ m ∈ b.marked, ∃ mark ∈ m.marks, mark.listedEvents = [])) = true := by
    decide +kernel
  obtain ⟨b, hb, ⟨hgenerates, hcalled⟩, m, hm, mark, hmark, hbare⟩ := by
    simpa only [Option.any_eq_true, Bool.and_eq_true_iff, decide_eq_true_iff] using hcheck
  obtain ⟨d, p, u, hfaults, hd, hp, hu⟩ := ImplBlock.exists_generated hgenerates
  obtain ⟨a, ha, -⟩ := (outcome_eq_generated_iff_adapter? p d u).1 hu
  have hcalls := forall₂_comp (ImplBlock.forall₂_calledFor hfaults hd .onStart)
    (forall₂_serves_dispatch ha (by decide))
  rw [List.isEmpty_iff.1 hcalled, List.forall₂_nil_left_iff] at hcalls
  exact ⟨b, d, p, u, a, hb, hfaults, hd, hp, hu, ha, hcalls, m, hm, mark, hmark, .inl hbare⟩

end Processor

end Lifecycle
