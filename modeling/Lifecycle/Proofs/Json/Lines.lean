import Lifecycle.Proofs.Json.Fitting

namespace Lifecycle.Json

namespace Reader

-- The fields of an object, of which there are fewer than `fuel`, as they stand.
def fieldsWithin (value : Reader Json) : Nat → Bool → Reader (List (String × Json))
  | 0, _ => throw .truncated
  | fuel + 1, first => do
    if ← hasKey first then
      skip
      let key ← quoted true
      colon
      let j ← value
      return (key, j) :: (← fieldsWithin value fuel false)
    else return []

-- An object, from its opening bracket on.
def object (value : Reader Json) : Reader (List (String × Json)) := do
  skip
  let fields ← fieldsWithin value ((← get).length + 1) true
  skip
  return fields

-- A value of any shape, nested less than `fuel` deep. Truth values and the numbers that are not whole
-- ones from zero on are JSON as well, but no values here.
def anyWithin : Nat → Reader Json
  | 0 => throw .truncated
  | fuel + 1 => do
    let c ← peekChar
    if c = 'n' then
      name c
      return .null
    else if startsNumber c then
      let n ← numeral .truncated
      if n.isOutOfRange then throw .malformed
      match n.nat? with
      | some value => return .number value
      | none => throw .mismatch
    else if c = '\x22' then return .text (← string)
    else if c = '[' then return .array (← array (anyWithin fuel))
    else if c = '\x7b' then return .object (← object (anyWithin fuel))
    else otherKind c

end Reader

-- The value that a whole text is, of whatever shape. Nothing but blanks may follow it.
def readAny (text : List Char) : Except Fault Json := do
  let (value, rest) ← Reader.anyWithin (text.length + 1) text
  if (rest.dropWhile isBlank).isEmpty then return value else throw .malformed

-- Values whose numbers are all below 2³².
inductive Worded : Json → Prop where
  | null : Worded .null
  | number {n : Nat} (h : n < UInt32.size) : Worded (.number n)
  | text (t : String) : Worded (.text t)
  | array {items : List Json} (h : ∀ j ∈ items, Worded j) : Worded (.array items)
  | object {fields : List (String × Json)} (h : ∀ f ∈ fields, Worded f.2) : Worded (.object fields)

theorem endsNumber_newline (depth : Nat) (rest : List Char) :
    EndsNumber (newline depth ++ rest) := by
  simp [EndsNumber, newline]

theorem endsNumber_linesItems (depth : Nat) (items : List Json) {rest : List Char}
    (h : EndsNumber rest) : EndsNumber (linesItems depth items ++ rest) := by
  cases items with
  | nil => exact h
  | cons j items => exact endsNumber_cons (by decide) _

theorem endsNumber_linesFields (depth : Nat) (fields : List (String × Json)) {rest : List Char}
    (h : EndsNumber rest) : EndsNumber (linesFields depth fields ++ rest) := by
  cases fields with
  | nil => exact h
  | cons f fields => exact endsNumber_cons (by decide) _

-- A value does not start with a blank, nor with the end of an array.
theorem exists_cons_lines (depth : Nat) (j : Json) :
    ∃ c cs, lines depth j = c :: cs ∧ isBlank c = false ∧ c ≠ ']' := by
  cases j with
  | null => exact ⟨'n', _, rfl, by decide, by decide⟩
  | number n =>
    obtain ⟨c, more, hcons⟩ := List.exists_cons_of_ne_nil (digits_ne_nil n)
    have hdigit : c.isDigit = true := isDigit_of_mem_digits (n := n) (by simp [hcons])
    refine ⟨c, more, by rw [lines, hcons], isBlank_of_isDigit hdigit, ?_⟩
    rintro rfl
    exact absurd hdigit (by decide)
  | text s => exact ⟨'\x22', _, rfl, by decide, by decide⟩
  | array items =>
    cases items with
    | nil => exact ⟨'[', _, rfl, by decide, by decide⟩
    | cons j items => exact ⟨'[', _, by rw [lines]; rfl, by decide, by decide⟩
  | object fields =>
    cases fields with
    | nil => exact ⟨'\x7b', _, rfl, by decide, by decide⟩
    | cons f fields => exact ⟨'\x7b', _, by rw [lines]; rfl, by decide, by decide⟩

namespace Reader

theorem peekChar_newline {c : Char} (h : isBlank c = false) (depth : Nat) (rest : List Char) :
    peekChar (newline depth ++ c :: rest) = .ok (c, c :: rest) := by
  have hblank : ∀ d ∈ newline depth, isBlank d = true := by
    intro d hd
    obtain rfl | ⟨-, rfl⟩ : d = '\n' ∨ _ ∧ d = ' ' := by simpa [newline] using hd
    · decide
    · decide
  have hdrop : (newline depth ++ c :: rest).dropWhile isBlank = c :: rest := by
    rw [List.dropWhile_append_of_pos hblank, List.dropWhile_cons_of_neg (by simp [h])]
  simp [peekChar, peek, hdrop, bind, StateT.bind, Except.bind, modify, modifyGet,
    MonadStateOf.modifyGet, StateT.modifyGet, get, getThe, MonadStateOf.get, StateT.get, pure,
    StateT.pure, Except.pure]

theorem hasItem_newline_end (first : Bool) (depth : Nat) (rest : List Char) :
    hasItem first (newline depth ++ ']' :: rest) = .ok (false, ']' :: rest) := by
  rw [hasItem, bind_of_ok (peekChar_newline (by decide) _ _), if_pos rfl]
  rfl

theorem hasItem_first_line (depth : Nat) (j : Json) (rest : List Char) :
    hasItem true (newline depth ++ (lines depth j ++ rest)) = .ok (true, lines depth j ++ rest) := by
  obtain ⟨c, cs, hlines, hblank, hend⟩ := exists_cons_lines depth j
  rw [hlines, List.cons_append, hasItem, bind_of_ok (peekChar_newline hblank _ _), if_neg hend,
    if_pos rfl]
  rfl

theorem hasItem_next_line (depth : Nat) (j : Json) (rest : List Char) :
    hasItem false (',' :: (newline depth ++ (lines depth j ++ rest))) =
      .ok (true, lines depth j ++ rest) := by
  obtain ⟨c, cs, hlines, hblank, hend⟩ := exists_cons_lines depth j
  rw [hlines, List.cons_append, hasItem, bind_of_ok (peekChar_cons (by decide) _),
    if_neg (by decide), if_neg (by decide), if_pos rfl, bind_of_ok (skip_cons _ _),
    bind_of_ok (peekChar_newline hblank _ _), if_neg hend]
  rfl

theorem endArray_cons (rest : List Char) : endArray (']' :: rest) = .ok ((), rest) := by
  rw [endArray, bind_of_ok (peekChar_cons (by decide) _), if_pos rfl]
  rfl

theorem hasKey_newline_end (first : Bool) (depth : Nat) (rest : List Char) :
    hasKey first (newline depth ++ '\x7d' :: rest) = .ok (false, '\x7d' :: rest) := by
  rw [hasKey, bind_of_ok (peekChar_newline (by decide) _ _), if_pos rfl]
  rfl

theorem hasKey_first_line (depth : Nat) (chars rest : List Char) :
    hasKey true (newline depth ++ (quote chars ++ rest)) = .ok (true, quote chars ++ rest) := by
  rw [quote_append, hasKey, bind_of_ok (peekChar_newline (by decide) _ _), if_neg (by decide),
    if_pos rfl, if_pos rfl]
  rfl

theorem hasKey_next_line (depth : Nat) (chars rest : List Char) :
    hasKey false (',' :: (newline depth ++ (quote chars ++ rest))) =
      .ok (true, quote chars ++ rest) := by
  rw [quote_append, hasKey, bind_of_ok (peekChar_cons (by decide) _), if_neg (by decide),
    if_neg (by decide), if_pos rfl, bind_of_ok (skip_cons _ _),
    bind_of_ok (peekChar_newline (by decide) _ _), if_pos rfl]
  rfl

section Parts

variable {value : Reader Json} {depth fuel : Nat} {items : List Json}
  {fields : List (String × Json)}

theorem itemsWithin_linesItems
    (hvalue : ∀ j ∈ items, ∀ rest, EndsNumber rest →
      value (lines depth j ++ rest) = .ok (j, rest))
    (hfuel : items.length < fuel) (outer : Nat) (rest : List Char) :
    itemsWithin value fuel false (linesItems depth items ++ (newline outer ++ ']' :: rest)) =
      .ok (items, ']' :: rest) := by
  induction items generalizing fuel with
  | nil =>
    obtain ⟨fuel, rfl⟩ := Nat.exists_eq_succ_of_ne_zero (Nat.ne_zero_of_lt hfuel)
    rw [linesItems, List.nil_append, itemsWithin, bind_of_ok (hasItem_newline_end _ _ _)]
    rfl
  | cons j items ih =>
    obtain ⟨fuel, rfl⟩ := Nat.exists_eq_succ_of_ne_zero (Nat.ne_zero_of_lt hfuel)
    obtain ⟨hj, hitems⟩ := List.forall_mem_cons.1 hvalue
    have hrest := ih hitems (Nat.lt_of_succ_lt_succ hfuel)
    have hends := endsNumber_linesItems depth items (endsNumber_newline outer (']' :: rest))
    simp only [linesItems, List.cons_append, List.append_assoc]
    rw [itemsWithin, bind_of_ok (hasItem_next_line _ _ _), if_pos rfl, bind_of_ok (hj _ hends),
      bind_of_ok hrest]
    rfl

theorem length_le_length_linesItems (depth : Nat) (items : List Json) :
    items.length ≤ (linesItems depth items).length := by
  induction items with
  | nil => simp
  | cons j items ih =>
    simp only [linesItems, List.cons_append, List.length_append, List.length_cons]
    omega

theorem array_lines (hvalue : ∀ j ∈ items, ∀ rest, EndsNumber rest →
      value (lines (depth + 1) j ++ rest) = .ok (j, rest)) (rest : List Char) :
    array value (lines depth (.array items) ++ rest) = .ok (items, rest) := by
  cases items with
  | nil =>
    rw [lines]
    simp only [List.cons_append, List.nil_append]
    rw [array, bind_of_ok (skip_cons _ _), bind_of_ok (get_apply _), itemsWithin]
    rw [bind_of_ok (show (_ : Reader (List Json)) (']' :: rest) = .ok ([], ']' :: rest) from ?_),
      bind_of_ok (endArray_cons rest)]
    · rfl
    · rw [bind_of_ok (hasItem_end _ _)]
      rfl
  | cons j items =>
    obtain ⟨hj, hitems⟩ := List.forall_mem_cons.1 hvalue
    have hlength := length_le_length_linesItems (depth + 1) items
    have hends :=
      endsNumber_linesItems (depth + 1) items (endsNumber_newline depth (']' :: rest))
    rw [lines]
    simp only [List.cons_append, List.append_assoc, List.nil_append]
    rw [array, bind_of_ok (skip_cons _ _), bind_of_ok (get_apply _), itemsWithin]
    rw [bind_of_ok (show (_ : Reader (List Json)) _ = .ok (j :: items, ']' :: rest) from ?_),
      bind_of_ok (endArray_cons rest)]
    · rfl
    · rw [bind_of_ok (hasItem_first_line _ _ _), if_pos rfl, bind_of_ok (hj _ hends),
        bind_of_ok (itemsWithin_linesItems hitems
          (by simp only [List.length_append, List.length_cons]; omega) depth rest)]
      rfl

-- A field is read from its key on.
theorem fieldsWithin_step {first : Bool} {key : String} {j : Json} {text rest : List Char}
    (hkey : hasKey first text =
      .ok (true, quote key.toList ++ ':' :: ' ' :: (lines depth j ++ rest)))
    (hj : value (' ' :: (lines depth j ++ rest)) = .ok (j, rest)) :
    fieldsWithin value (fuel + 1) first text =
      (fieldsWithin value fuel false rest).map fun (fields, rest) => ((key, j) :: fields, rest) := by
  have hquoted := quoted_escape key.toList (':' :: ' ' :: (lines depth j ++ rest))
  rw [String.ofList_toList] at hquoted
  rw [quote_append] at hkey
  rw [fieldsWithin, bind_of_ok hkey, if_pos rfl, bind_of_ok (skip_cons _ _), bind_of_ok hquoted,
    bind_of_ok (colon_cons _), bind_of_ok hj]
  rfl

theorem fieldsWithin_linesFields
    (hvalue : ∀ f ∈ fields, ∀ rest, EndsNumber rest →
      value (' ' :: (lines depth f.2 ++ rest)) = .ok (f.2, rest))
    (hfuel : fields.length < fuel) (outer : Nat) (rest : List Char) :
    fieldsWithin value fuel false (linesFields depth fields ++ (newline outer ++ '\x7d' :: rest)) =
      .ok (fields, '\x7d' :: rest) := by
  induction fields generalizing fuel with
  | nil =>
    obtain ⟨fuel, rfl⟩ := Nat.exists_eq_succ_of_ne_zero (Nat.ne_zero_of_lt hfuel)
    rw [linesFields, List.nil_append, fieldsWithin, bind_of_ok (hasKey_newline_end _ _ _)]
    rfl
  | cons f fields ih =>
    obtain ⟨fuel, rfl⟩ := Nat.exists_eq_succ_of_ne_zero (Nat.ne_zero_of_lt hfuel)
    obtain ⟨hj, hfields⟩ := List.forall_mem_cons.1 hvalue
    have hends := endsNumber_linesFields depth fields (endsNumber_newline outer ('\x7d' :: rest))
    simp only [linesFields, List.cons_append, List.append_assoc]
    rw [fieldsWithin_step (hasKey_next_line depth _ _) (hj _ hends),
      ih hfields (Nat.lt_of_succ_lt_succ hfuel)]
    rfl

theorem length_le_length_linesFields (depth : Nat) (fields : List (String × Json)) :
    fields.length ≤ (linesFields depth fields).length := by
  induction fields with
  | nil => simp
  | cons f fields ih =>
    simp only [linesFields, List.cons_append, List.length_append, List.length_cons]
    omega

theorem object_lines (hvalue : ∀ f ∈ fields, ∀ rest, EndsNumber rest →
      value (' ' :: (lines (depth + 1) f.2 ++ rest)) = .ok (f.2, rest)) (rest : List Char) :
    object value (lines depth (.object fields) ++ rest) = .ok (fields, rest) := by
  have hclose : ∀ {text : List Char} {fuel : Nat},
      fieldsWithin value fuel true text = .ok (fields, '\x7d' :: rest) →
      (do
        let fields ← fieldsWithin value fuel true
        skip
        return fields : Reader _) text = .ok (fields, rest) := by
    intro text fuel h
    rw [bind_of_ok h, bind_of_ok (skip_cons _ _)]
    rfl
  cases fields with
  | nil =>
    rw [lines]
    simp only [List.cons_append, List.nil_append]
    rw [object, bind_of_ok (skip_cons _ _), bind_of_ok (get_apply _)]
    refine hclose ?_
    rw [fieldsWithin, bind_of_ok (hasKey_end _ _)]
    rfl
  | cons f fields =>
    obtain ⟨hj, hfields⟩ := List.forall_mem_cons.1 hvalue
    have hlength := length_le_length_linesFields (depth + 1) fields
    have hends :=
      endsNumber_linesFields (depth + 1) fields (endsNumber_newline depth ('\x7d' :: rest))
    rw [lines]
    simp only [List.cons_append, List.append_assoc, List.nil_append]
    rw [object, bind_of_ok (skip_cons _ _), bind_of_ok (get_apply _)]
    refine hclose ?_
    rw [fieldsWithin_step (hasKey_first_line (depth + 1) _ _) (hj _ hends),
      fieldsWithin_linesFields hfields
        (by simp only [List.length_append, List.length_cons]; omega) depth rest]
    rfl

end Parts

theorem length_lt_of_mem_linesItems (depth : Nat) {items : List Json} {j : Json} (h : j ∈ items) :
    (lines depth j).length < (linesItems depth items).length := by
  induction items with
  | nil => cases h
  | cons i items ih =>
    simp only [linesItems, List.cons_append, List.length_append, List.length_cons]
    rcases List.mem_cons.1 h with rfl | h
    · omega
    · have := ih h
      omega

theorem length_lt_of_mem_linesFields (depth : Nat) {fields : List (String × Json)}
    {f : String × Json} (h : f ∈ fields) :
    (lines depth f.2).length < (linesFields depth fields).length := by
  induction fields with
  | nil => cases h
  | cons e fields ih =>
    simp only [linesFields, List.cons_append, List.length_append, List.length_cons]
    rcases List.mem_cons.1 h with rfl | h
    · omega
    · have := ih h
      omega

theorem length_lt_of_mem_items {depth : Nat} {items : List Json} {j : Json} (h : j ∈ items) :
    (lines (depth + 1) j).length < (lines depth (.array items)).length := by
  have hitems := length_lt_of_mem_linesItems (depth + 1) h
  obtain ⟨i, items, rfl⟩ := List.exists_cons_of_ne_nil (List.ne_nil_of_mem h)
  simp only [lines, linesItems, List.cons_append, List.length_append, List.length_cons] at hitems ⊢
  omega

theorem length_lt_of_mem_fields {depth : Nat} {fields : List (String × Json)} {f : String × Json}
    (h : f ∈ fields) : (lines (depth + 1) f.2).length < (lines depth (.object fields)).length := by
  have hfields := length_lt_of_mem_linesFields (depth + 1) h
  obtain ⟨e, fields, rfl⟩ := List.exists_cons_of_ne_nil (List.ne_nil_of_mem h)
  simp only [lines, linesFields, List.cons_append, List.length_append, List.length_cons]
    at hfields ⊢
  omega

-- A blank in front of a value is skipped.
theorem anyWithin_blank (fuel : Nat) (cs : List Char) :
    anyWithin fuel (' ' :: cs) = anyWithin fuel cs := by
  cases fuel with
  | zero => rfl
  | succ fuel =>
    have hpeek : peekChar (' ' :: cs) = peekChar cs := rfl
    change (peekChar (' ' :: cs) >>= _) = (peekChar cs >>= _)
    rw [hpeek]

-- The start of a value tells of which kind it is.
theorem anyWithin_lines {j : Json} (h : Worded j) {fuel depth : Nat}
    (hfuel : (lines depth j).length < fuel) {rest : List Char} (hends : EndsNumber rest) :
    anyWithin fuel (lines depth j ++ rest) = .ok (j, rest) := by
  induction h generalizing fuel depth rest with
  | null =>
    obtain ⟨fuel, rfl⟩ := Nat.exists_eq_succ_of_ne_zero (Nat.ne_zero_of_lt hfuel)
    rw [lines]
    simp only [List.cons_append, List.nil_append]
    rw [anyWithin, bind_of_ok (peekChar_cons (by decide) _), if_pos rfl]
    rfl
  | @number n h =>
    obtain ⟨fuel, rfl⟩ := Nat.exists_eq_succ_of_ne_zero (Nat.ne_zero_of_lt hfuel)
    obtain ⟨c, more, hcons⟩ := List.exists_cons_of_ne_nil (digits_ne_nil n)
    have hdigit : c.isDigit = true := isDigit_of_mem_digits (n := n) (by simp [hcons])
    have hn : c ≠ 'n' := by
      rintro rfl
      exact absurd hdigit (by decide)
    have hpeek : peekChar (digits n ++ rest) = .ok (c, digits n ++ rest) := by
      rw [hcons]
      exact peekChar_cons (isBlank_of_isDigit hdigit) _
    rw [lines, anyWithin, bind_of_ok hpeek, if_neg hn, if_pos (by simp [startsNumber, hdigit]),
      bind_of_ok (show numeral .truncated (digits n ++ rest) = _ from
        Numeral.read_digits hends n .truncated)]
    simp [Numeral.isOutOfRange_digits h, Numeral.nat?_digits, pure, StateT.pure, Except.pure]
  | text t =>
    obtain ⟨fuel, rfl⟩ := Nat.exists_eq_succ_of_ne_zero (Nat.ne_zero_of_lt hfuel)
    have hread := string_quote t rest
    rw [lines]
    rw [quote_append] at hread ⊢
    rw [anyWithin, bind_of_ok (peekChar_cons (by decide) _), if_neg (by decide),
      if_neg (by decide), if_pos rfl, bind_of_ok hread]
    rfl
  | @array items _ ih =>
    obtain ⟨fuel, rfl⟩ := Nat.exists_eq_succ_of_ne_zero (Nat.ne_zero_of_lt hfuel)
    have hread : array (anyWithin fuel) (lines depth (.array items) ++ rest) = .ok (items, rest) :=
      array_lines (fun j hj rest hends => ih j hj
        (Nat.lt_of_lt_of_le (length_lt_of_mem_items hj) (Nat.le_of_lt_succ hfuel)) hends) rest
    have hpeek : peekChar (lines depth (.array items) ++ rest) =
        .ok ('[', lines depth (.array items) ++ rest) := by
      cases items <;> (rw [lines]; exact peekChar_cons (by decide) _)
    rw [anyWithin, bind_of_ok hpeek, if_neg (by decide), if_neg (by decide), if_neg (by decide),
      if_pos rfl, bind_of_ok hread]
    rfl
  | @object fields _ ih =>
    obtain ⟨fuel, rfl⟩ := Nat.exists_eq_succ_of_ne_zero (Nat.ne_zero_of_lt hfuel)
    have hread : object (anyWithin fuel) (lines depth (.object fields) ++ rest) =
        .ok (fields, rest) :=
      object_lines (fun f hf rest hends => (anyWithin_blank fuel _).trans <| ih f hf
        (Nat.lt_of_lt_of_le (length_lt_of_mem_fields hf) (Nat.le_of_lt_succ hfuel)) hends) rest
    have hpeek : peekChar (lines depth (.object fields) ++ rest) =
        .ok ('\x7b', lines depth (.object fields) ++ rest) := by
      cases fields <;> (rw [lines]; exact peekChar_cons (by decide) _)
    rw [anyWithin, bind_of_ok hpeek, if_neg (by decide), if_neg (by decide), if_neg (by decide),
      if_neg (by decide), if_pos rfl, bind_of_ok hread]
    rfl

end Reader

-- The text of a value in lines is read as this value.
theorem readAny_lines {j : Json} (h : Worded j) : readAny (lines 0 j) = .ok j := by
  have hread := Reader.anyWithin_lines h (Nat.lt_succ_self (lines 0 j).length) endsNumber_nil
  rw [List.append_nil] at hread
  simp [readAny, hread, bind, Except.bind, pure, Except.pure]

end Lifecycle.Json
