import Lifecycle.Proofs.Json.Lines
import Lifecycle.Proofs.Json.RoundTrip

namespace Lifecycle

namespace Json

-- The value of a key of an object.
def field? (key : String) : Json → Option Json
  | .object fields => fields.lookup key
  | _ => none

-- The keys of an object, as they stand.
def keys : Json → List String
  | .object fields => fields.map (·.1)
  | _ => []

-- The value of a type that a part of a text stands for, when the part is printed by itself.
def value? (α : Type) [JsonForm α] (j : Json) : Option α :=
  (readJson α j.compact).toOption

theorem value?_toJson {α : Type} [JsonForm α] [LawfulJsonForm α] (a : α) :
    (JsonForm.toJson a).value? α = some a := by
  have hread := readJson_jsonText a
  rw [jsonText, compactText, String.toList_ofList] at hread
  rw [value?, hread]
  rfl

theorem worded_ofWord (n : UInt32) : Worded (ofWord n) :=
  .number n.toNat_lt_size

theorem worded_ofTexts (texts : List String) : Worded (ofTexts texts) := by
  refine .array fun j hj => ?_
  obtain ⟨t, -, rfl⟩ := List.mem_map.1 hj
  exact .text t

end Json

open Json

-- What a part of a text carries of a diagnostic. The text of the message is carried as well.
structure Diagnostic.CarriedBy (d : Diagnostic) (j : Json) : Prop where
  keys : j.keys = ["method", "class", "method_name", "location", "kind", "message"]
  id : (j.field? "method").bind (value? CallbackId) = some d.id
  className : (j.field? "class").bind text? = some d.className
  callbackName : (j.field? "method_name").bind text? = some d.callbackName
  location : (j.field? "location").bind (value? Location) = d.location
  place : d.location = none → j.field? "location" = some .null
  violation : ((j.field? "kind").bind text?).bind Violation.ofName? = some d.violation
  message : (j.field? "message").bind text? = some d.violation.message

namespace Diagnostic

-- No two diagnostics are carried by one part.
theorem CarriedBy.eq {d e : Diagnostic} {j : Json} (hd : d.CarriedBy j) (he : e.CarriedBy j) :
    d = e := by
  obtain ⟨did, dclass, dname, dlocation, dviolation⟩ := d
  obtain ⟨eid, eclass, ename, elocation, eviolation⟩ := e
  obtain rfl : did = eid := Option.some.inj (hd.id.symm.trans he.id)
  obtain rfl : dclass = eclass := Option.some.inj (hd.className.symm.trans he.className)
  obtain rfl : dname = ename := Option.some.inj (hd.callbackName.symm.trans he.callbackName)
  obtain rfl : dlocation = elocation := hd.location.symm.trans he.location
  obtain rfl : dviolation = eviolation := Option.some.inj (hd.violation.symm.trans he.violation)
  rfl

theorem carriedBy_toJson (d : Diagnostic) : d.CarriedBy d.toJson := by
  obtain ⟨id, className, callbackName, location, violation⟩ := d
  refine ⟨rfl, value?_toJson id, rfl, rfl, ?_, ?_, ?_, rfl⟩
  · cases location with
    | none => rfl
    | some l => exact value?_toJson l
  · rintro rfl
    rfl
  · cases violation <;> rfl

theorem worded_toJson (d : Diagnostic) : Worded d.toJson := by
  have hlocation : ∀ l : Location, Worded (JsonForm.toJson l) := fun l =>
    .object (by simpa using ⟨.text l.file, worded_ofWord l.line, worded_ofWord l.column⟩)
  refine .object ?_
  simp only [List.forall_mem_cons, List.not_mem_nil, false_implies, implies_true, and_true]
  refine ⟨worded_ofWord d.id.number, .text _, .text _, ?_, .text _, .text _⟩
  cases d.location with
  | none => exact .null
  | some l => exact hlocation l

end Diagnostic

namespace Report

theorem worded_toJson (r : Report) : Worded r.toJson := by
  refine .object ?_
  simp only [List.forall_mem_cons, List.not_mem_nil, false_implies, implies_true, and_true]
  refine ⟨.array ?_, .array ?_, worded_ofTexts r.failedClasses⟩
  · exact List.forall_mem_map.2 fun d _ => d.worded_toJson
  · exact List.forall_mem_map.2 fun u _ =>
      .object (by simpa using ⟨.text u.name, .text u.moduleText, .text u.body⟩)

theorem readAny_jsonText (r : Report) : readAny r.jsonText.toList = .ok r.toJson := by
  rw [jsonText, linesText, String.toList_ofList]
  exact readAny_lines r.worded_toJson

theorem toJson_injective : Function.Injective toJson := by
  intro r s h
  have hdiagnostic : Function.Injective Diagnostic.toJson := fun d e hde =>
    d.carriedBy_toJson.eq (hde ▸ e.carriedBy_toJson)
  have hunit : Function.Injective (JsonForm.toJson : SourceUnit → Json) := fun u v huv =>
    Option.some.inj ((value?_toJson u).symm.trans (huv ▸ value?_toJson v))
  have hfields := Json.object.inj h
  simp only [List.cons.injEq, Prod.mk.injEq, Json.array.injEq, true_and, and_true] at hfields
  obtain ⟨hdiagnostics, hunits, hfailed⟩ := hfields
  have htexts := congrArg texts? hfailed
  rw [ofTexts, ofTexts, texts?_map_text, texts?_map_text] at htexts
  obtain ⟨rdiagnostics, runits, rfailed⟩ := r
  obtain ⟨sdiagnostics, sunits, sfailed⟩ := s
  obtain rfl : rdiagnostics = sdiagnostics := hdiagnostic.list_map hdiagnostics
  obtain rfl : runits = sunits := hunit.list_map hunits
  obtain rfl : rfailed = sfailed := Option.some.inj htexts
  rfl

-- The text of a report is the text of one object. Its keys are those of the three lists of the report;
-- each source text is read back by its own form from the part that stands for it, each diagnostic is
-- carried by such a part, and the classes that failed stand there as texts, all in their order. So no
-- other report has the same text.
theorem jsonText_of_report (r : Report) :
    ∃ j, readAny r.jsonText.toList = .ok j ∧ j.keys = ["diagnostics", "units", "failed_classes"] ∧
      (∃ items, j.field? "units" = some (.array items) ∧
        List.Forall₂ (fun u i => value? SourceUnit i = some u) r.units items) ∧
      (∃ items, j.field? "diagnostics" = some (.array items) ∧
        List.Forall₂ Diagnostic.CarriedBy r.diagnostics items) ∧
      (j.field? "failed_classes").bind texts? = some r.failedClasses ∧
      ∀ s : Report, s.jsonText = r.jsonText → s = r := by
  refine ⟨r.toJson, r.readAny_jsonText, rfl, ⟨_, rfl, ?_⟩, ⟨_, rfl, ?_⟩,
    texts?_map_text r.failedClasses, fun s hs => ?_⟩
  · rw [List.forall₂_map_right_iff, List.forall₂_same]
    exact fun u _ => value?_toJson u
  · rw [List.forall₂_map_right_iff, List.forall₂_same]
    exact fun d _ => d.carriedBy_toJson
  · have hread := s.readAny_jsonText
    rw [hs, r.readAny_jsonText] at hread
    exact (toJson_injective (Except.ok.inj hread)).symm

end Report

end Lifecycle
