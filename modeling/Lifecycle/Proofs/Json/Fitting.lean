import Lifecycle.Proofs.Json.Skipping
import Mathlib.Data.List.Forall2

namespace Lifecycle

namespace Json

inductive Shape.Fits : Shape → Json → Prop
  | number {n : Nat} (h : n < UInt32.size) : Fits .number (.number n)
  | text (t : String) : Fits .text (.text t)
  | texts (ts : List String) : Fits .texts (.array (ts.map .text))

-- Whether a field of a record is the one of some key and shape.
def FieldFits (field : String × Shape) (value : String × Json) : Prop :=
  field.1 = value.1 ∧ field.2.Fits value.2

inductive Schema.Fits : Schema → Json → Prop
  | single {s : Shape} {j : Json} (h : s.Fits j) : Fits (.single s) j
  | choice {names : List String} {name : String} (h : name ∈ names) :
    Fits (.choice names) (.text name)
  | record {fields : List (String × Shape)} {values : List (String × Json)}
    (h : List.Forall₂ FieldFits fields values) (hkeys : (fields.map Prod.fst).Nodup) :
    Fits (.record fields) (.object values)

theorem keys_eq_of_fits {fields : List (String × Shape)} {values : List (String × Json)}
    (h : List.Forall₂ FieldFits fields values) : fields.map Prod.fst = values.map Prod.fst := by
  induction h with
  | nil => rfl
  | cons hfit _ ih => simp [hfit.1, ih]

section Keys

variable {β : Type} {found rest : List (String × β)} {key : String} {b : β}

theorem lookup_middle (h : ((found ++ (key, b) :: rest).map Prod.fst).Nodup) :
    (found ++ (key, b) :: rest).lookup key = some b ∧ found.lookup key = none := by
  have hnew : ∀ p ∈ found, key ≠ p.1 := by
    intro p hp heq
    rw [List.map_append, List.map_cons] at h
    exact (List.nodup_append.1 h).2.2 p.1 (List.mem_map_of_mem hp) key (List.mem_cons_self ..)
      heq.symm
  have hdiffer : ∀ p ∈ found, (key != p.1) = true := fun p hp => bne_iff_ne.2 (hnew p hp)
  exact ⟨List.lookup_eq_some_iff.2 ⟨found, rest, rfl, hdiffer⟩, List.lookup_eq_none_iff.2 hdiffer⟩

theorem lookup_of_mem (hkeys : (found.map Prod.fst).Nodup) (h : (key, b) ∈ found) :
    found.lookup key = some b := by
  obtain ⟨before, after, rfl⟩ := List.append_of_mem h
  exact (lookup_middle hkeys).1

end Keys

namespace Reader

theorem shape_compact {s : Shape} {j : Json} (h : s.Fits j) {rest : List Char}
    (hends : EndsNumber rest) : shape s (compact j ++ rest) = .ok (j, rest) := by
  cases h with
  | number h => exact number_digits h hends
  | text t =>
    rw [compact, shape, bind_of_ok (string_quote t rest)]
    rfl
  | texts ts =>
    have harray := array_texts ts rest
    rw [List.cons_append] at harray
    rw [compact, List.append_assoc, List.cons_append, List.singleton_append, shape,
      bind_of_ok (peekChar_cons (by decide) _), if_pos rfl, bind_of_ok harray]
    rfl

theorem hasKey_end (first : Bool) (rest : List Char) :
    hasKey first ('\x7d' :: rest) = .ok (false, '\x7d' :: rest) := by
  rw [hasKey, bind_of_ok (peekChar_cons (by decide) _), if_pos rfl]
  rfl

theorem hasKey_first (chars rest : List Char) :
    hasKey true (quote chars ++ rest) = .ok (true, quote chars ++ rest) := by
  rw [quote_append, hasKey, bind_of_ok (peekChar_cons (by decide) _), if_neg (by decide),
    if_pos rfl, if_pos rfl]
  rfl

theorem hasKey_next (chars rest : List Char) :
    hasKey false (',' :: (quote chars ++ rest)) = .ok (true, quote chars ++ rest) := by
  rw [quote_append, hasKey, bind_of_ok (peekChar_cons (by decide) _), if_neg (by decide),
    if_neg (by decide), if_pos rfl, bind_of_ok (skip_cons _ _),
    bind_of_ok (peekChar_cons (by decide) _), if_pos rfl]
  rfl

theorem colon_cons (rest : List Char) : colon (':' :: rest) = .ok ((), rest) := by
  rw [colon, bind_of_ok (peekChar_cons (by decide) _), if_pos rfl]
  rfl

section Fields

variable {fields : List (String × Shape)}

-- One field of an object is read.
theorem recordFields_step {fuel : Nat} {first : Bool} {found : List (String × Json)}
    {key : String} {s : Shape} {j : Json} {text rest : List Char}
    (hkey : hasKey first text = .ok (true, quote key.toList ++ ':' :: (compact j ++ rest)))
    (hfield : fields.lookup key = some s) (hnew : found.lookup key = none) (hfits : s.Fits j)
    (hends : EndsNumber rest) :
    recordFields fields (fuel + 1) first found text =
      recordFields fields fuel false (found ++ [(key, j)]) rest := by
  have hquoted := quoted_escape key.toList (':' :: (compact j ++ rest))
  rw [String.ofList_toList] at hquoted
  rw [quote_append] at hkey
  rw [recordFields, bind_of_ok hkey, if_neg (by decide), bind_of_ok (skip_cons _ _),
    bind_of_ok hquoted]
  simp only [hfield, hnew]
  rw [if_neg (by decide), bind_of_ok (colon_cons _), bind_of_ok (shape_compact hfits hends)]

-- A field that the record does not have is skipped, whatever its value is.
theorem recordFields_skip {fuel : Nat} {first : Bool} {found : List (String × Json)}
    {key : String} {j : Json} {text rest : List Char}
    (hkey : hasKey first text = .ok (true, quote key.toList ++ ':' :: (compact j ++ rest)))
    (hfield : fields.lookup key = none) (hends : EndsNumber rest) :
    recordFields fields (fuel + 1) first found text =
      recordFields fields fuel false found rest := by
  have hquoted := quoted_escape key.toList (':' :: (compact j ++ rest))
  rw [String.ofList_toList] at hquoted
  rw [quote_append] at hkey
  rw [recordFields, bind_of_ok hkey, if_neg (by decide), bind_of_ok (skip_cons _ _),
    bind_of_ok hquoted]
  simp only [hfield]
  rw [bind_of_ok (colon_cons _), bind_of_ok (ignored_compact j hends)]

-- The fields of some values that the record has.
def asked (fields : List (String × Shape)) (values : List (String × Json)) : List (String × Json) :=
  values.filter fun v => (fields.lookup v.1).isSome

-- The fields that are still to be read are new and fit the record, as far as it has them.
structure Remaining (fields : List (String × Shape)) (found values : List (String × Json)) :
    Prop where
  fits : ∀ v ∈ values, ∀ s, fields.lookup v.1 = some s → s.Fits v.2
  distinct : ((found ++ asked fields values).map Prod.fst).Nodup

-- The next field is one of the record and new, or it is none of the record.
theorem Remaining.cons {found values : List (String × Json)} {v : String × Json}
    (h : Remaining fields found (v :: values)) :
    (∃ s, fields.lookup v.1 = some s ∧ s.Fits v.2 ∧ found.lookup v.1 = none ∧
      asked fields (v :: values) = v :: asked fields values ∧
      Remaining fields (found ++ [v]) values) ∨
    (fields.lookup v.1 = none ∧ asked fields (v :: values) = asked fields values ∧
      Remaining fields found values) := by
  obtain ⟨hv, hvalues⟩ := List.forall_mem_cons.1 h.fits
  have hdistinct := h.distinct
  cases hfield : fields.lookup v.1 with
  | some s =>
    have hasked : asked fields (v :: values) = v :: asked fields values := by simp [asked, hfield]
    rw [hasked] at hdistinct
    have hnew := (lookup_middle hdistinct).2
    exact .inl ⟨s, rfl, hv s hfield, hnew, hasked, hvalues, by simpa using hdistinct⟩
  | none =>
    have hasked : asked fields (v :: values) = asked fields values := by simp [asked, hfield]
    exact .inr ⟨rfl, hasked, hvalues, hasked ▸ hdistinct⟩

-- One more field is read, or skipped.
theorem recordFields_cons {fuel : Nat} {first : Bool} {found values : List (String × Json)}
    {v : String × Json} {text rest : List Char} (h : Remaining fields found (v :: values))
    (hkey : hasKey first text = .ok (true, quote v.1.toList ++ ':' :: (compact v.2 ++ rest)))
    (hends : EndsNumber rest)
    (hnext : ∀ {found}, Remaining fields found values →
      recordFields fields fuel false found rest =
        .ok (found ++ asked fields values, '\x7d' :: tail)) :
    recordFields fields (fuel + 1) first found text =
      .ok (found ++ asked fields (v :: values), '\x7d' :: tail) := by
  obtain ⟨s, hfield, hfits, hnew, hasked, hremaining⟩ | ⟨hfield, hasked, hremaining⟩ := h.cons
  · rw [recordFields_step hkey hfield hnew hfits hends, hnext hremaining, hasked]
    simp
  · rw [recordFields_skip hkey hfield hends, hnext hremaining, hasked]

theorem recordFields_otherFields {fuel : Nat} {found values : List (String × Json)}
    (hfuel : values.length < fuel) (h : Remaining fields found values) (rest : List Char) :
    recordFields fields fuel false found (otherFields values ++ '\x7d' :: rest) =
      .ok (found ++ asked fields values, '\x7d' :: rest) := by
  induction values generalizing fuel found with
  | nil =>
    obtain ⟨fuel, rfl⟩ := Nat.exists_eq_succ_of_ne_zero (Nat.ne_zero_of_lt hfuel)
    rw [otherFields, List.flatMap_nil, List.nil_append, recordFields, bind_of_ok (hasKey_end _ _),
      asked, List.filter_nil, List.append_nil]
    rfl
  | cons v values ih =>
    obtain ⟨fuel, rfl⟩ := Nat.exists_eq_succ_of_ne_zero (Nat.ne_zero_of_lt hfuel)
    have hkey := hasKey_next v.1.toList
      (':' :: (compact v.2 ++ (otherFields values ++ '\x7d' :: rest)))
    have hcons : otherFields (v :: values) ++ '\x7d' :: rest =
        ',' :: (quote v.1.toList ++
          ':' :: (compact v.2 ++ (otherFields values ++ '\x7d' :: rest))) := by
      simp [otherFields]
    rw [hcons]
    exact recordFields_cons h hkey (endsNumber_otherFields values rest) fun hremaining =>
      ih (Nat.lt_of_succ_lt_succ hfuel) hremaining

theorem length_le_length_otherFields (values : List (String × Json)) :
    values.length ≤ (otherFields values).length := by
  induction values with
  | nil => simp
  | cons v values ih =>
    simp only [otherFields, List.flatMap_cons, List.length_append, List.length_cons] at ih ⊢
    omega

-- The fields of the record are read in the order in which they are written.
theorem recordFields_compact {values : List (String × Json)} (h : Remaining fields [] values)
    (rest : List Char) :
    ∀ fuel, values.length < fuel →
      recordFields fields fuel true [] (compactFields values ++ '\x7d' :: rest) =
        .ok (asked fields values, '\x7d' :: rest) := by
  intro fuel hfuel
  obtain ⟨fuel, rfl⟩ := Nat.exists_eq_succ_of_ne_zero (Nat.ne_zero_of_lt hfuel)
  cases values with
  | nil =>
    rw [compactFields, List.nil_append, recordFields, bind_of_ok (hasKey_end _ _)]
    rfl
  | cons v values =>
    have hkey := hasKey_first v.1.toList
      (':' :: (compact v.2 ++ (otherFields values ++ '\x7d' :: rest)))
    have hcons : compactFields (v :: values) ++ '\x7d' :: rest =
        quote v.1.toList ++ ':' :: (compact v.2 ++ (otherFields values ++ '\x7d' :: rest)) := by
      rw [compactFields_cons]
      simp
    rw [hcons]
    exact recordFields_cons h hkey (endsNumber_otherFields values rest) fun hremaining =>
      recordFields_otherFields (Nat.lt_of_succ_lt_succ hfuel) hremaining rest

end Fields

variable {fields : List (String × Shape)} {values : List (String × Json)}

theorem exists_field (h : List.Forall₂ FieldFits fields values) :
    ∀ v ∈ values, ∃ f ∈ fields, FieldFits f v := by
  induction h with
  | nil => simp
  | cons hfit _ ih =>
    refine List.forall_mem_cons.2 ⟨⟨_, List.mem_cons_self .., hfit⟩, fun v hv => ?_⟩
    obtain ⟨f, hf, hfit⟩ := ih v hv
    exact ⟨f, List.mem_cons_of_mem _ hf, hfit⟩

-- Fields beside those of the record do not matter, nor does the order.
theorem remaining_of_perm {written : List (String × Json)} (h : List.Forall₂ FieldFits fields values)
    (hkeys : (fields.map Prod.fst).Nodup) (hperm : (asked fields written).Perm values) :
    Remaining fields [] written := by
  refine ⟨fun v hv s hs => ?_, ?_⟩
  · have hasked : v ∈ asked fields written := List.mem_filter.2 ⟨hv, by simp [hs]⟩
    obtain ⟨f, hf, hkey, hfits⟩ := exists_field h v (hperm.subset hasked)
    have hsame : some s = some f.2 := hs.symm.trans (hkey ▸ lookup_of_mem hkeys hf)
    exact Option.some.inj hsame ▸ hfits
  · rw [keys_eq_of_fits h] at hkeys
    exact (hperm.map Prod.fst).nodup_iff.2 hkeys

theorem mapM_field (h : List.Forall₂ FieldFits fields values) (find : String → Option Json)
    (hfind : ∀ v ∈ values, find v.1 = some v.2) :
    (fields.mapM fun (key, _) => (find key).map (key, ·)) = some values := by
  induction h with
  | nil => rfl
  | @cons f v _ _ hfit _ ih =>
    obtain ⟨hv, hvalues⟩ := List.forall_mem_cons.1 hfind
    have hf : (find f.1).map (f.1, ·) = some v := by rw [hfit.1, hv, Option.map_some]
    rw [List.mapM_cons, ih hvalues]
    change ((find f.1).map (f.1, ·) >>= fun v => some _ >>= fun values => pure (v :: values)) = _
    rw [hf]
    rfl

-- The fields that were found are brought into the order of the record.
theorem ordered_of_perm {found : List (String × Json)} (h : List.Forall₂ FieldFits fields values)
    (hkeys : (fields.map Prod.fst).Nodup) (hperm : found.Perm values) :
    ordered fields found = some values := by
  rw [keys_eq_of_fits h] at hkeys
  have hfound : (found.map Prod.fst).Nodup := (hperm.map Prod.fst).nodup_iff.2 hkeys
  exact mapM_field h (List.lookup · found) fun v hv => lookup_of_mem hfound (hperm.mem_iff.2 hv)

theorem length_le_length_compactFields (values : List (String × Json)) :
    values.length ≤ (compactFields values).length := by
  cases values with
  | nil => simp
  | cons v values =>
    have hothers := length_le_length_otherFields values
    rw [compactFields_cons]
    simp only [quote, List.length_append, List.length_cons, List.length_nil]
    omega

theorem record_object {written : List (String × Json)} (h : List.Forall₂ FieldFits fields values)
    (hkeys : (fields.map Prod.fst).Nodup) (hperm : (asked fields written).Perm values)
    (rest : List Char) :
    record fields (compact (.object written) ++ rest) = .ok (.object values, rest) := by
  have hremaining := remaining_of_perm h hkeys hperm
  have hlength := length_le_length_compactFields written
  have hfields := recordFields_compact hremaining rest
    ((compactFields written ++ '\x7d' :: rest).length + 1)
    (by simp only [List.length_append, List.length_cons]; omega)
  have htext : compact (.object written) ++ rest =
      '\x7b' :: (compactFields written ++ '\x7d' :: rest) := by
    simp [compact]
  rw [htext, record, bind_of_ok (peekChar_cons (by decide) _), if_neg (by decide), if_pos rfl,
    bind_of_ok (skip_cons _ _), bind_of_ok (get_apply _), bind_of_ok hfields]
  simp only [ordered_of_perm h hkeys hperm]
  rw [bind_of_ok (skip_cons _ _)]
  rfl

theorem hasItem_value (j : Json) (rest : List Char) :
    hasItem true (compact j ++ rest) = .ok (true, compact j ++ rest) ∧
      hasItem false (',' :: (compact j ++ rest)) = .ok (true, compact j ++ rest) := by
  obtain ⟨c, cs, hcompact, hblank, hend⟩ := exists_cons_compact j
  rw [hcompact, List.cons_append]
  constructor
  · rw [hasItem, bind_of_ok (peekChar_cons hblank _), if_neg hend, if_pos rfl]
    rfl
  · rw [hasItem, bind_of_ok (peekChar_cons (by decide) _), if_neg (by decide), if_neg (by decide),
      if_pos rfl, bind_of_ok (skip_cons _ _), bind_of_ok (peekChar_cons hblank _), if_neg hend]
    rfl

theorem recordItems_otherItems (h : List.Forall₂ FieldFits fields values) (rest : List Char) :
    recordItems fields false (otherItems (values.map Prod.snd) ++ ']' :: rest) =
      .ok (values, ']' :: rest) := by
  induction h with
  | nil => rfl
  | @cons f v fields values hfit _ ih =>
    have hends := endsNumber_otherItems (values.map Prod.snd) rest
    have hcons : otherItems ((v :: values).map Prod.snd) ++ ']' :: rest =
        ',' :: (compact v.2 ++ (otherItems (values.map Prod.snd) ++ ']' :: rest)) := by
      simp [otherItems]
    rw [hcons, recordItems, bind_of_ok (hasItem_value _ _).2, if_neg (by decide)]
    refine (bind_of_ok (shape_compact hfit.2 hends)).trans ?_
    rw [bind_of_ok ih, hfit.1]
    rfl

theorem recordItems_compactItems (h : List.Forall₂ FieldFits fields values) (rest : List Char) :
    recordItems fields true (compactItems (values.map Prod.snd) ++ ']' :: rest) =
      .ok (values, ']' :: rest) := by
  cases h with
  | nil => rfl
  | @cons f v fields values hfit hvalues =>
    have hends := endsNumber_otherItems (values.map Prod.snd) rest
    have hothers := recordItems_otherItems hvalues rest
    rw [List.map_cons, compactItems_cons, List.append_assoc, recordItems,
      bind_of_ok (hasItem_value _ _).1, if_neg (by decide)]
    refine (bind_of_ok (shape_compact hfit.2 hends)).trans ?_
    rw [bind_of_ok hothers, hfit.1]
    rfl

theorem record_array (h : List.Forall₂ FieldFits fields values) (rest : List Char) :
    record fields (compact (.array (values.map Prod.snd)) ++ rest) = .ok (.object values, rest) := by
  have hitems := recordItems_compactItems h rest
  have hend : endArray (']' :: rest) = .ok ((), rest) := by
    rw [endArray, bind_of_ok (peekChar_cons (by decide) _), if_pos rfl]
    rfl
  have htext : compact (.array (values.map Prod.snd)) ++ rest =
      '[' :: (compactItems (values.map Prod.snd) ++ ']' :: rest) := by
    simp [compact]
  rw [htext, record, bind_of_ok (peekChar_cons (by decide) _), if_pos rfl,
    bind_of_ok (skip_cons _ _), bind_of_ok hitems, bind_of_ok hend]
  rfl

theorem choiceName_quote {names : List String} {name : String} (h : name ∈ names)
    (rest : List Char) : choiceName names (quote name.toList ++ rest) = .ok (name, rest) := by
  rw [choiceName, bind_of_ok (string_quote name rest), if_pos h]
  rfl

theorem choice_quote {names : List String} {name : String} (h : name ∈ names) (rest : List Char) :
    choice names (quote name.toList ++ rest) = .ok (.text name, rest) := by
  have hpeek : peekChar (quote name.toList ++ rest) = .ok ('\x22', quote name.toList ++ rest) := by
    rw [quote_append]
    exact peekChar_cons (by decide) _
  rw [choice, bind_of_ok hpeek, if_pos rfl, bind_of_ok (choiceName_quote h rest)]
  rfl

theorem choice_key {names : List String} {name : String} (h : name ∈ names) (rest : List Char) :
    choice names (compact (.object [(name, .null)]) ++ rest) = .ok (.text name, rest) := by
  have htext : compact (.object [(name, .null)]) ++ rest =
      '\x7b' :: (quote name.toList ++ ':' :: 'n' :: 'u' :: 'l' :: 'l' :: '\x7d' :: rest) := by
    simp [compact, compactFields]
  rw [htext, choice, bind_of_ok (peekChar_cons (by decide) _), if_neg (by decide), if_pos rfl,
    bind_of_ok (skip_cons _ _), bind_of_ok (choiceName_quote h _), bind_of_ok (colon_cons _),
    bind_of_ok (peekChar_cons (by decide) _), if_neg (by decide)]
  rfl

end Reader

-- How a value of a schema may be written: a record as an object of its fields in any order, and of any
-- others besides, or as the array of its values, and a name as an object that maps it to `null`.
inductive Schema.Writes : Schema → Json → Json → Prop
  | single {s : Shape} {j : Json} (h : s.Fits j) : Writes (.single s) j j
  | name {names : List String} {name : String} (h : name ∈ names) :
    Writes (.choice names) (.text name) (.text name)
  | key {names : List String} {name : String} (h : name ∈ names) :
    Writes (.choice names) (.text name) (.object [(name, .null)])
  | fields {fields : List (String × Shape)} {values written : List (String × Json)}
    (h : List.Forall₂ FieldFits fields values) (hkeys : (fields.map Prod.fst).Nodup)
    (hperm : (Reader.asked fields written).Perm values) :
    Writes (.record fields) (.object values) (.object written)
  | items {fields : List (String × Shape)} {values : List (String × Json)}
    (h : List.Forall₂ FieldFits fields values) :
    Writes (.record fields) (.object values) (.array (values.map Prod.snd))

theorem Schema.Fits.writes {s : Schema} {j : Json} (h : s.Fits j) : s.Writes j j := by
  cases h with
  | single h => exact .single h
  | choice h => exact .name h
  | @record fields values h hkeys =>
    have hasked : Reader.asked fields values = values := by
      refine List.filter_eq_self.2 fun v hv => ?_
      obtain ⟨f, hf, hkey, -⟩ := Reader.exists_field h v hv
      rw [← hkey, lookup_of_mem hkeys hf]
      rfl
    exact .fields h hkeys (.of_eq hasked)

theorem Reader.value_compact {s : Schema} {j written : Json} (h : s.Writes j written)
    {rest : List Char} (hends : EndsNumber rest) :
    value s (compact written ++ rest) = .ok (j, rest) := by
  cases h with
  | single h => exact shape_compact h hends
  | name h => exact choice_quote h rest
  | key h => exact choice_key h rest
  | fields h hkeys hperm => exact record_object h hkeys hperm rest
  | items h => exact record_array h rest

-- Whatever way a value of a schema is written in, it is read as this value.
theorem Schema.read_compact {s : Schema} {j written : Json} (h : s.Writes j written) :
    s.read (compact written) = .ok j := by
  have hvalue := Reader.value_compact h (endsNumber_nil)
  rw [List.append_nil] at hvalue
  simp [Schema.read, hvalue, bind, Except.bind, pure, Except.pure]

end Json

end Lifecycle
