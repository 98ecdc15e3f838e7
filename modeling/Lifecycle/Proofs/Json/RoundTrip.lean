import Lifecycle.Json.Model
import Lifecycle.Proofs.Json.Accepted

namespace Lifecycle

open Text Json

namespace Text

theorem insertName_of_forall_lt {name : String} {names : List String} (h : ∀ n ∈ names, n < name) :
    insertName name names = names ++ [name] := by
  induction names with
  | nil => rfl
  | cons n rest ih =>
    obtain ⟨hn, hrest⟩ := List.forall_mem_cons.1 h
    rw [insertName, if_neg (String.lt_asymm hn), if_pos hn, ih hrest, List.cons_append]

namespace NameSet

theorem ext {s t : NameSet} (h : s.toList = t.toList) : s = t := by
  cases s
  cases t
  congr

theorem toList_foldl_insert {s : NameSet} {names : List String}
    (h : (s.toList ++ names).Pairwise (· < ·)) :
    (names.foldl insert s).toList = s.toList ++ names := by
  induction names generalizing s with
  | nil => simp
  | cons name rest ih =>
    have hlt := (List.pairwise_append.1 h).2.2
    have hinsert : (s.insert name).toList = s.toList ++ [name] :=
      insertName_of_forall_lt fun n hn => hlt n hn name (List.mem_cons_self ..)
    rw [List.foldl_cons, ih (by rw [hinsert]; simpa using h), hinsert]
    simp

-- The names of a set in their order make this set.
theorem ofList_toList (s : NameSet) : ofList s.toList = s :=
  ext (toList_foldl_insert (s := empty) (by simpa [empty] using s.sorted))

end NameSet

end Text

namespace Json

theorem word?_ofWord (n : UInt32) : (ofWord n).word? = some n := by
  simp [ofWord, word?, n.toNat_lt_size]

theorem fits_ofWord (n : UInt32) : Shape.number.Fits (ofWord n) :=
  .number n.toNat_lt_size

theorem texts?_map_text (texts : List String) : (Json.array (texts.map .text)).texts? = some texts := by
  induction texts with
  | nil => rfl
  | cons t texts ih =>
    rw [texts?] at ih ⊢
    simp [text?, ih]

theorem fits_ofTexts (texts : List String) : Shape.texts.Fits (ofTexts texts) :=
  .texts texts

-- What the values of a shape stand for.
theorem Shape.Fits.exists_word {j : Json} (h : Shape.number.Fits j) : ∃ n, j.word? = some n := by
  cases h with
  | number hlt => exact ⟨_, if_pos hlt⟩

theorem Shape.Fits.exists_text {j : Json} (h : Shape.text.Fits j) : ∃ t, j.text? = some t := by
  cases h with
  | text t => exact ⟨t, rfl⟩

theorem Shape.Fits.exists_texts {j : Json} (h : Shape.texts.Fits j) : ∃ ts, j.texts? = some ts := by
  cases h with
  | texts ts => exact ⟨ts, texts?_map_text ts⟩

end Json

-- A JSON form whose values fit its schema, and that takes all values of its schema.
class LawfulJsonForm (α : Type) [JsonForm α] : Prop where
  distinctKeys : (JsonForm.schema α).HasDistinctKeys
  fits_toJson (a : α) : (JsonForm.schema α).Fits (JsonForm.toJson a)
  ofJson?_toJson (a : α) : JsonForm.ofJson? (JsonForm.toJson a) = some a
  exists_of_fits {j : Json} (h : (JsonForm.schema α).Fits j) : ∃ a : α, JsonForm.ofJson? j = some a

open LawfulJsonForm

instance : LawfulJsonForm CallbackId where
  distinctKeys := trivial
  fits_toJson id := .single (fits_ofWord id.number)
  ofJson?_toJson id := by simp [JsonForm.toJson, JsonForm.ofJson?, word?_ofWord]
  exists_of_fits
    | .single h => by
      obtain ⟨n, hn⟩ := h.exists_word
      exact ⟨⟨n⟩, by simp [JsonForm.ofJson?, hn]⟩

instance : LawfulJsonForm Location where
  distinctKeys := by decide
  fits_toJson l :=
    .record (.cons ⟨rfl, .text l.file⟩ (.cons ⟨rfl, fits_ofWord l.line⟩
      (.cons ⟨rfl, fits_ofWord l.column⟩ .nil))) (by decide)
  ofJson?_toJson l := by simp [JsonForm.toJson, JsonForm.ofJson?, text?, word?_ofWord]
  exists_of_fits
    | .record (.cons hfile (.cons hline (.cons hcolumn .nil))) _ => by
      obtain ⟨file, hfile⟩ := hfile.2.exists_text
      obtain ⟨line, hline⟩ := hline.2.exists_word
      obtain ⟨column, hcolumn⟩ := hcolumn.2.exists_word
      exact ⟨⟨file, line, column⟩, by simp [JsonForm.ofJson?, hfile, hline, hcolumn]⟩

instance : LawfulJsonForm ClassPath where
  distinctKeys := by decide
  fits_toJson c :=
    .record (.cons ⟨rfl, fits_ofTexts c.modules⟩ (.cons ⟨rfl, .text c.name⟩ .nil)) (by decide)
  ofJson?_toJson c := by simp [JsonForm.toJson, JsonForm.ofJson?, text?, ofTexts, texts?_map_text]
  exists_of_fits
    | .record (.cons hmodules (.cons hname .nil)) _ => by
      obtain ⟨modules, hmodules⟩ := hmodules.2.exists_texts
      obtain ⟨name, hname⟩ := hname.2.exists_text
      exact ⟨⟨modules, name⟩, by simp [JsonForm.ofJson?, hmodules, hname]⟩

instance : LawfulJsonForm NamedType where
  distinctKeys := by decide
  fits_toJson t :=
    .record (.cons ⟨rfl, .text t.name⟩ (.cons ⟨rfl, fits_ofTexts t.capabilities.toList⟩ .nil))
      (by decide)
  ofJson?_toJson t := by
    simp [JsonForm.toJson, JsonForm.ofJson?, text?, ofTexts, texts?_map_text, NameSet.ofList_toList]
  exists_of_fits
    | .record (.cons hname (.cons hcapabilities .nil)) _ => by
      obtain ⟨name, hname⟩ := hname.2.exists_text
      obtain ⟨capabilities, hcapabilities⟩ := hcapabilities.2.exists_texts
      exact ⟨⟨name, .ofList capabilities⟩, by simp [JsonForm.ofJson?, hname, hcapabilities]⟩

instance : LawfulJsonForm Event where
  distinctKeys := trivial
  fits_toJson e := .choice (List.mem_map_of_mem (Event.mem_all e))
  ofJson?_toJson e := by simp [JsonForm.toJson, JsonForm.ofJson?, text?]
  exists_of_fits
    | .choice h => by
      obtain ⟨e, -, rfl⟩ := List.mem_map.1 h
      exact ⟨e, by simp [JsonForm.ofJson?, text?]⟩

instance : LawfulJsonForm Receiver where
  distinctKeys := trivial
  fits_toJson r := .choice (by cases r <;> decide)
  ofJson?_toJson r := by simp [JsonForm.toJson, JsonForm.ofJson?, text?]
  exists_of_fits
    | .choice h => by
      obtain ⟨r, -, rfl⟩ := List.mem_map.1 h
      exact ⟨r, by simp [JsonForm.ofJson?, text?]⟩

instance : LawfulJsonForm SourceUnit where
  distinctKeys := by decide
  fits_toJson u :=
    .record (.cons ⟨rfl, .text u.name⟩ (.cons ⟨rfl, .text u.moduleText⟩
      (.cons ⟨rfl, .text u.body⟩ .nil))) (by decide)
  ofJson?_toJson u := by simp [JsonForm.toJson, JsonForm.ofJson?, text?]
  exists_of_fits
    | .record (.cons hname (.cons hmodule (.cons hbody .nil))) _ => by
      obtain ⟨name, hname⟩ := hname.2.exists_text
      obtain ⟨moduleText, hmodule⟩ := hmodule.2.exists_text
      obtain ⟨body, hbody⟩ := hbody.2.exists_text
      exact ⟨⟨name, moduleText, body⟩, by simp [JsonForm.ofJson?, hname, hmodule, hbody]⟩

section Canonical

variable {α : Type} [JsonForm α] [LawfulJsonForm α]

theorem readJson_of_writes {a : α} {written : Json}
    (h : (JsonForm.schema α).Writes (JsonForm.toJson a) written) :
    readJson α (compact written) = .ok a := by
  have hread := Schema.read_compact h
  simp [readJson, hread, ofJson?_toJson, bind, Except.bind, pure, Except.pure]

theorem readJson_jsonText (a : α) : readJson α (jsonText a).toList = .ok a := by
  rw [jsonText, compactText, String.toList_ofList]
  exact readJson_of_writes (fits_toJson a).writes

theorem jsonText_injective {a b : α} (h : jsonText a = jsonText b) : a = b := by
  have hread := readJson_jsonText a
  rw [h, readJson_jsonText b] at hread
  exact (Except.ok.inj hread).symm

-- Reading fails only where the text has not the form that the schema asks for.
theorem exists_readJson_of_read {text : List Char} {j : Json}
    (h : (JsonForm.schema α).read text = .ok j) : ∃ a : α, readJson α text = .ok a := by
  have hkeys : (JsonForm.schema α).HasDistinctKeys := distinctKeys
  obtain ⟨a, ha⟩ := exists_of_fits (Schema.fits_of_read hkeys h)
  exact ⟨a, by simp [readJson, h, ha, bind, Except.bind, pure, Except.pure]⟩

end Canonical

-- Whether the values of a type are read back from their texts, in all forms that these may have, and
-- whether the compact text of a value is the canonical one of all texts that are read as it.
structure JsonForm.RoundTrips (α : Type) [JsonForm α] : Prop where
  reads_written (a : α) : readJson α (jsonText a).toList = .ok a
  reads_forms (a : α) (written : Json) (h : (schema α).Writes (toJson a) written) :
    readJson α (compact written) = .ok a
  canonical (text : List Char) (j : Json) (h : (schema α).read text = .ok j) :
    ∃ a, readJson α text = .ok a ∧
      ∃ b, readJson α (jsonText a).toList = .ok b ∧ b = a ∧ jsonText b = jsonText a
  text_eq_iff (a b : α) : jsonText a = jsonText b ↔ a = b

theorem JsonForm.roundTrips {α : Type} [JsonForm α] [LawfulJsonForm α] : RoundTrips α where
  reads_written := readJson_jsonText
  reads_forms a _ h := readJson_of_writes h
  canonical _ _ h := by
    obtain ⟨a, ha⟩ := exists_readJson_of_read h
    exact ⟨a, ha, a, readJson_jsonText a, rfl, rfl⟩
  text_eq_iff _ _ := ⟨jsonText_injective, congrArg jsonText⟩

-- The capabilities of a type may be listed in any order and more than once.
theorem readJson_capabilities (name : String) (names : List String) :
    readJson NamedType (compact (.object [("name", .text name), ("assignable_to", ofTexts names)])) =
      .ok ⟨name, .ofList names⟩ := by
  have hfits : (JsonForm.schema NamedType).Fits
      (.object [("name", .text name), ("assignable_to", ofTexts names)]) :=
    .record (.cons ⟨rfl, .text name⟩ (.cons ⟨rfl, fits_ofTexts names⟩ .nil)) (by decide)
  have hof : JsonForm.ofJson? (.object [("name", .text name), ("assignable_to", ofTexts names)]) =
      some (⟨name, .ofList names⟩ : NamedType) := by
    simp [JsonForm.ofJson?, text?, ofTexts, texts?_map_text]
  rw [readJson, Schema.read_compact hfits.writes]
  simp only [bind, Except.bind, hof]
  rfl

-- All values that have a JSON form round trip, and the capabilities of a type come back in their
-- order and once each.
theorem roundTrips_of_values :
    JsonForm.RoundTrips CallbackId ∧ JsonForm.RoundTrips Location ∧ JsonForm.RoundTrips ClassPath ∧
      JsonForm.RoundTrips NamedType ∧ JsonForm.RoundTrips Event ∧ JsonForm.RoundTrips Receiver ∧
      JsonForm.RoundTrips SourceUnit ∧
      ∀ name names, ∃ t, readJson NamedType
          (compact (.object [("name", .text name), ("assignable_to", ofTexts names)])) = .ok t ∧
        t.name = name ∧ t.capabilities.toList.Pairwise (· < ·) ∧
        ∀ n, n ∈ t.capabilities ↔ n ∈ names := by
  refine ⟨JsonForm.roundTrips, JsonForm.roundTrips, JsonForm.roundTrips, JsonForm.roundTrips,
    JsonForm.roundTrips, JsonForm.roundTrips, JsonForm.roundTrips, fun name names => ?_⟩
  have hread := readJson_capabilities name names
  exact ⟨_, hread, rfl, (NameSet.ofList names).sorted, fun _ => NameSet.mem_ofList⟩

end Lifecycle
