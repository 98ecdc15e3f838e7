import Lifecycle.Proofs.Independence

namespace Lifecycle

namespace Path

-- Whether the last segment of a path has this name, whatever stands before it.
def EndsIn (p : Path) (name : String) : Prop :=
  ∃ before last, p.segments = before ++ [last] ∧ last.name.text = name

theorem getLast?_segments (p : Path) : p.segments.getLast? = some p.last := by
  simp [segments, last, List.getLast?_cons]

theorem endsIn_iff {p : Path} {name : String} : p.EndsIn name ↔ p.last.name.text = name := by
  constructor
  · rintro ⟨before, last, hsegments, hname⟩
    have hlast := p.getLast?_segments
    rw [hsegments, List.getLast?_concat] at hlast
    exact Option.some.inj hlast ▸ hname
  · intro hname
    obtain ⟨before, hsegments⟩ := List.getLast?_eq_some_iff.1 p.getLast?_segments
    exact ⟨before, p.last, hsegments, hname⟩

instance (p : Path) (name : String) : Decidable (p.EndsIn name) :=
  decidable_of_iff _ endsIn_iff.symm

end Path

theorem Attribute.isCallbackMark_iff {a : Attribute} :
    a.isCallbackMark = true ↔ a.content.head.EndsIn "on_lifecycle_event" := by
  rw [isCallbackMark, beq_iff_eq, Path.endsIn_iff]

namespace Method

theorem cleaned_eq_self {m : Method} (h : m.marks = []) : m.cleaned = m := by
  have hall : m.attributes.filter (!·.isCallbackMark) = m.attributes :=
    List.filter_eq_self.2 fun a ha => by simpa using List.filter_eq_nil_iff.1 h a ha
  rw [cleaned, hall]

theorem marks_cleaned (m : Method) : m.cleaned.marks = [] := by
  simp [marks, cleaned, List.filter_filter]

-- The marks are taken off before anything of the method is looked at.
theorem cleaned_examine (m : Method) : m.examine.cleaned = .method m.cleaned := by
  by_cases hmarks : m.marks = []
  · rw [examine_of_unmarked hmarks, cleaned_eq_self hmarks]
  · cases hreceiver : m.signature.receiverKind with
    | error fault => rw [examine_of_receiver_fault hmarks hreceiver]
    | ok receiver => rw [examine_of_receiver hmarks hreceiver]

end Method

namespace ImplItem

-- What an item is when its block has been cleaned: a method without the attributes whose path ends
-- in the name of the mark, and the same in everything else; any other item as it was.
inductive Cleans : ImplItem → ImplItem → Prop where
  | method (m : Method) :
    Cleans (.method m) (.method { m with
      attributes := m.attributes.filter fun a => ¬ a.content.head.EndsIn "on_lifecycle_event" })
  | other (tokens : List Tree) : Cleans (.other tokens) (.other tokens)

theorem cleans_examine (item : ImplItem) : item.Cleans item.examine.cleaned := by
  cases item with
  | other ts => exact .other ts
  | method m =>
    have hkeep : (fun a : Attribute => !a.isCallbackMark) =
        fun a => decide ¬ a.content.head.EndsIn "on_lifecycle_event" := by
      funext a
      simp [← Attribute.isCallbackMark_iff]
    rw [examine, m.cleaned_examine, Method.cleaned, hkeep]
    exact .method m

-- Nothing is found in an item without marks, and it stays as it is.
theorem examine_cleaned (item : ImplItem) :
    item.examine.cleaned.examine = { cleaned := item.examine.cleaned } := by
  cases item with
  | other ts => rfl
  | method m =>
    rw [examine, m.cleaned_examine]
    exact Method.examine_of_unmarked m.marks_cleaned

end ImplItem

namespace ImplBlock

-- Of a block in whose items nothing is found there is only the header to tell of.
theorem extract_of_unmarked {b : ImplBlock}
    (h : ∀ item ∈ b.items, item.examine = { cleaned := item }) :
    b.extract =
      { cleaned := b
        declaration := b.subject.toOption.map fun subject => { subject }
        places := []
        faults := b.headerFaults } := by
  have hfindings : b.items.map (·.examine) = b.items.map fun item => { cleaned := item } :=
    List.map_congr_left h
  have hfound : b.foundCallbacks = [] := by
    rw [foundCallbacks, hfindings]
    simp
  have hfaults : (b.items.map (·.examine)).flatMap (·.faults) = [] := by
    rw [hfindings]
    simp
  have hitems : (b.items.map (·.examine)).map (·.cleaned) = b.items := by
    rw [hfindings, List.map_map]
    exact List.map_id _
  cases hsubject : b.subject with
  | ok subject => rw [extract_of_subject hsubject, hfound, hfaults, hitems, headerFaults, hsubject]; rfl
  | error fault => rw [extract_of_subject_fault hsubject, hfaults, hitems, headerFaults, hsubject]; rfl

-- The items of a block are cleaned one by one, in their order, and its header stays. In the cleaned
-- block there is nothing left to find: it stays as it is, declares no callbacks, and has no faults
-- but that of its header, if this names no class.
theorem extract_cleaned (b : ImplBlock) :
    b.extract.cleaned = { b with items := b.extract.cleaned.items } ∧
    List.Forall₂ ImplItem.Cleans b.items b.extract.cleaned.items ∧
    b.extract.cleaned.extract =
      { cleaned := b.extract.cleaned
        declaration := b.subject.toOption.map fun subject => { subject, callbacks := [] }
        places := []
        faults := b.headerFaults } := by
  have hcleaned := b.cleaned_extract
  refine ⟨?_, ?_, ?_⟩
  · rw [hcleaned]
    rfl
  · rw [hcleaned, withItems, List.forall₂_map_right_iff, List.forall₂_same]
    exact fun item _ => item.cleans_examine
  · have hitems : ∀ item ∈ b.extract.cleaned.items, item.examine = { cleaned := item } := by
      rw [hcleaned]
      exact List.forall_mem_map.2 fun item _ => item.examine_cleaned
    rw [extract_of_unmarked hitems]
    simp only [hcleaned, headerFaults, subject_withItems]

end ImplBlock

end Lifecycle
