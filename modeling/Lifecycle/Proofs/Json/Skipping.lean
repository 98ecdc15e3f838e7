import Lifecycle.Proofs.Json.Reading

namespace Lifecycle.Json

theorem endsNumber_nil : EndsNumber [] := by
  simp [EndsNumber]

theorem endsNumber_cons {c : Char} (h : c ∈ [',', ']', '\x7d']) (rest : List Char) :
    EndsNumber (c :: rest) := by
  intro d hd
  obtain rfl : c = d := by simpa using hd
  obtain rfl | rfl | rfl : c = ',' ∨ c = ']' ∨ c = '\x7d' := by simpa using h
  all_goals decide

namespace Reader

-- What follows the last item that was read of an array: the others, each after a comma.
def otherItems (items : List Json) : List Char :=
  items.flatMap fun j => ',' :: compact j

theorem compactItems_cons (j : Json) (items : List Json) :
    compactItems (j :: items) = compact j ++ otherItems items := by
  induction items generalizing j with
  | nil => simp [compactItems, otherItems]
  | cons k items ih => simp [compactItems, otherItems, ih]

theorem endsNumber_otherItems (items : List Json) (rest : List Char) :
    EndsNumber (otherItems items ++ ']' :: rest) := by
  cases items with
  | nil => exact endsNumber_cons (by decide) rest
  | cons j items => exact endsNumber_cons (by decide) _

-- What follows the last field that was read of an object: the others, each after a comma.
def otherFields (values : List (String × Json)) : List Char :=
  values.flatMap fun (key, j) => ',' :: (quote key.toList ++ ':' :: compact j)

theorem compactFields_cons (key : String) (j : Json) (values : List (String × Json)) :
    compactFields ((key, j) :: values) =
      quote key.toList ++ ':' :: (compact j ++ otherFields values) := by
  induction values generalizing key j with
  | nil => simp [compactFields, otherFields]
  | cons v values ih =>
    obtain ⟨key', j'⟩ := v
    simp [compactFields, otherFields, ih]

theorem endsNumber_otherFields (values : List (String × Json)) (rest : List Char) :
    EndsNumber (otherFields values ++ '\x7d' :: rest) := by
  cases values with
  | nil => exact endsNumber_cons (by decide) rest
  | cons v values => exact endsNumber_cons (by decide) _

end Reader

-- A value does not start with a blank, nor with the end of an array.
theorem exists_cons_compact (j : Json) :
    ∃ c cs, compact j = c :: cs ∧ isBlank c = false ∧ c ≠ ']' := by
  cases j with
  | null => exact ⟨'n', _, by rw [compact], by decide, by decide⟩
  | number n =>
    obtain ⟨c, more, hcons⟩ := List.exists_cons_of_ne_nil (digits_ne_nil n)
    have hdigit : c.isDigit = true := isDigit_of_mem_digits (n := n) (by simp [hcons])
    refine ⟨c, more, by rw [compact, hcons], isBlank_of_isDigit hdigit, ?_⟩
    rintro rfl
    exact absurd hdigit (by decide)
  | text s => exact ⟨'\x22', _, by rw [compact]; rfl, by decide, by decide⟩
  | array items => exact ⟨'[', _, by rw [compact]; rfl, by decide, by decide⟩
  | object fields => exact ⟨'\x7b', _, by rw [compact]; rfl, by decide, by decide⟩

-- Nobody asks for the characters of these texts, so that only where they end matters.
theorem exists_firstChar_unasked (c : Char) (rest : List Char) :
    ∃ d, firstChar false (escapeChar c ++ rest) = .ok (some (d, (escapeChar c).length)) := by
  unfold escapeChar
  split
  · exact ⟨_, rfl⟩
  rename_i hquote
  split
  · exact ⟨_, rfl⟩
  rename_i hslash
  iterate 5
    split
    · exact ⟨_, rfl⟩
  split
  · rename_i hcontrol
    have hread := unit?_control hcontrol rest
    exact ⟨'?', by simp [firstChar, unicodeEscape, hread, bind, Except.bind, pure, Except.pure]⟩
  · rename_i hprinted
    refine ⟨c, ?_⟩
    change firstChar false (c :: rest) = .ok (some (c, 1))
    unfold firstChar
    split
    all_goals simp_all

theorem exists_unquoteWithin_unasked {fuel : Nat} {chars : List Char} (h : chars.length < fuel)
    (rest : List Char) :
    ∃ found, unquoteWithin false fuel (chars.flatMap escapeChar ++ '\x22' :: rest) =
      .ok (found, rest) := by
  induction chars generalizing fuel with
  | nil =>
    obtain ⟨fuel, rfl⟩ := Nat.exists_eq_succ_of_ne_zero (Nat.ne_zero_of_lt h)
    exact ⟨[], rfl⟩
  | cons c chars ih =>
    obtain ⟨fuel, rfl⟩ := Nat.exists_eq_succ_of_ne_zero (Nat.ne_zero_of_lt h)
    obtain ⟨found, hrest⟩ := ih (Nat.lt_of_succ_lt_succ h)
    obtain ⟨d, hfirst⟩ := exists_firstChar_unasked c (chars.flatMap escapeChar ++ '\x22' :: rest)
    refine ⟨d :: found, ?_⟩
    rw [List.flatMap_cons, List.append_assoc, unquoteWithin, hfirst]
    simp only [List.drop_left, hrest, Except.map]

theorem exists_unquote_unasked (chars rest : List Char) :
    ∃ found, unquote false (chars.flatMap escapeChar ++ '\x22' :: rest) = .ok (found, rest) := by
  refine exists_unquoteWithin_unasked ?_ rest
  have hle := length_le_length_escape chars
  simp only [List.length_append]
  omega

namespace Reader

theorem exists_quoted_unasked (chars rest : List Char) :
    ∃ found, quoted false (chars.flatMap escapeChar ++ '\x22' :: rest) = .ok (found, rest) := by
  obtain ⟨found, hfound⟩ := exists_unquote_unasked chars rest
  exact ⟨String.ofList found, by simp [quoted, hfound, bind, Except.bind, pure, Except.pure]⟩

-- A state of the reader that skips a part: what it expects, the brackets that it has to close, and the
-- text in front of it.
structure Skipping where
  expected : Expected
  stack : List Char
  text : List Char

namespace Skipping

-- One step of the reader, which takes something from the text.
structure Goes (s t : Skipping) : Prop where
  step : skipStep s.expected s.stack s.text = .ok ((t.expected, t.stack), t.text)
  shorter : t.text.length < s.text.length
  unfinished : s.expected = .next → s.stack ≠ []

theorem skipWithin_of_goes {s t : Skipping} (h : s.Goes t) (fuel : Nat) :
    skipWithin (fuel + 1) s.expected s.stack s.text = skipWithin fuel t.expected t.stack t.text := by
  rw [skipWithin, bind_of_ok h.step]
  exact fun hexpected => h.unfinished hexpected

-- The part is skipped once nothing is expected any more, however many steps it takes.
theorem skipWithin_of_steps {s : Skipping} {rest : List Char}
    (h : Relation.ReflTransGen Goes s ⟨.next, [], rest⟩) {fuel : Nat} (hfuel : s.text.length ≤ fuel) :
    skipWithin fuel s.expected s.stack s.text = .ok ((), rest) := by
  induction h using Relation.ReflTransGen.head_induction_on generalizing fuel with
  | refl =>
    rw [skipWithin]
    rfl
  | head hgoes _ ih =>
    have hshorter := hgoes.shorter
    obtain ⟨fuel, rfl⟩ := Nat.exists_eq_succ_of_ne_zero (show fuel ≠ 0 by omega)
    rw [skipWithin_of_goes hgoes]
    exact ih (by omega)

end Skipping

open Skipping

variable {stack rest : List Char}

theorem skipKey_quote (chars rest : List Char) :
    skipKey (quote chars ++ ':' :: rest) = .ok ((), rest) := by
  obtain ⟨found, hquoted⟩ := exists_quoted_unasked chars (':' :: rest)
  rw [quote_append, skipKey, bind_of_ok (peekChar_cons (by decide) _), if_neg (by decide)]
  refine (bind_of_ok (skip_cons _ _)).trans ?_
  rw [bind_of_ok hquoted, bind_of_ok (peekChar_cons (by decide) _), if_neg (by decide)]
  rfl

theorem peek_cons {c : Char} (h : isBlank c = false) (rest : List Char) :
    peek (c :: rest) = .ok (some c, c :: rest) := by
  simp [peek, h, bind, StateT.bind, Except.bind, modify, modifyGet, MonadStateOf.modifyGet,
    StateT.modifyGet, get, getThe, MonadStateOf.get, StateT.get, pure, StateT.pure, Except.pure]

-- The first item of an array is skipped like any value.
theorem Skipping.Goes.firstItem {c : Char} {cs : List Char} {t : Skipping} (hblank : isBlank c = false)
    (hc : c ≠ ']') (h : Goes ⟨.value, stack, c :: cs⟩ t) : Goes ⟨.firstItem, stack, c :: cs⟩ t where
  step := by
    have hne : ¬some c = some ']' := fun heq => hc (Option.some.inj heq)
    have hstep := h.step
    simp only [skipStep] at hstep ⊢
    rw [bind_of_ok (peek_cons hblank _), if_neg hne]
    exact hstep
  shorter := h.shorter
  unfinished := nofun

theorem goes_item_end : Goes ⟨.firstItem, ']' :: stack, ']' :: rest⟩ ⟨.next, stack, rest⟩ where
  step := by
    simp only [skipStep]
    rw [bind_of_ok (peek_cons (by decide) _), if_pos rfl]
    rfl
  shorter := Nat.lt_succ_self _
  unfinished := nofun

theorem goes_key_end : Goes ⟨.firstKey, '\x7d' :: stack, '\x7d' :: rest⟩ ⟨.next, stack, rest⟩ where
  step := by
    simp only [skipStep]
    rw [bind_of_ok (peek_cons (by decide) _), if_pos rfl]
    rfl
  shorter := Nat.lt_succ_self _
  unfinished := nofun

theorem length_lt_quote (chars rest : List Char) :
    rest.length < (quote chars ++ ':' :: rest).length := by
  simp only [List.length_append, List.length_cons]
  omega

theorem goes_firstKey (chars : List Char) :
    Goes ⟨.firstKey, stack, quote chars ++ ':' :: rest⟩ ⟨.value, stack, rest⟩ where
  step := by
    have hkey := skipKey_quote chars rest
    rw [quote_append] at hkey ⊢
    simp only [skipStep]
    rw [bind_of_ok (peek_cons (by decide) _), if_neg (by decide), bind_of_ok hkey]
    rfl
  shorter := length_lt_quote chars rest
  unfinished := nofun

theorem goes_key (chars : List Char) :
    Goes ⟨.key, stack, quote chars ++ ':' :: rest⟩ ⟨.value, stack, rest⟩ where
  step := by
    simp only [skipStep]
    rw [bind_of_ok (skipKey_quote chars rest)]
    rfl
  shorter := length_lt_quote chars rest
  unfinished := nofun

-- A comma leads to the next item or key, by the bracket that is open.
theorem goes_comma {b : Char} :
    Goes ⟨.next, b :: stack, ',' :: rest⟩
      ⟨if b = ']' then .value else .key, b :: stack, rest⟩ where
  step := by
    simp only [skipStep]
    rw [bind_of_ok (peekChar_cons (by decide) _), if_pos rfl, bind_of_ok (skip_cons _ _)]
    simp [pure, StateT.pure, Except.pure]
  shorter := Nat.lt_succ_self _
  unfinished := fun _ => List.cons_ne_nil _ _

theorem goes_close {b : Char} (hblank : isBlank b = false) (hb : b ≠ ',') :
    Goes ⟨.next, b :: stack, b :: rest⟩ ⟨.next, stack, rest⟩ where
  step := by
    simp only [skipStep]
    rw [bind_of_ok (peekChar_cons hblank _), if_neg hb, if_pos (List.head?_cons ..)]
    rfl
  shorter := Nat.lt_succ_self _
  unfinished := fun _ => List.cons_ne_nil _ _

-- A value that is skipped in one step.
theorem goes_single {j : Json} (h : skipValue stack (compact j ++ rest) = .ok ((.next, stack), rest))
    (hj : compact j ≠ []) : Goes ⟨.value, stack, compact j ++ rest⟩ ⟨.next, stack, rest⟩ where
  step := h
  shorter := by
    have hpos := List.length_pos_iff.2 hj
    simp only [List.length_append]
    omega
  unfinished := nofun

theorem skipValue_digits (n : Nat) (hends : EndsNumber rest) :
    skipValue stack (digits n ++ rest) = .ok ((.next, stack), rest) := by
  obtain ⟨c, more, hcons⟩ := List.exists_cons_of_ne_nil (digits_ne_nil n)
  have hdigit : c.isDigit = true := isDigit_of_mem_digits (n := n) (by simp [hcons])
  have hpeek : peekChar (digits n ++ rest) = .ok (c, digits n ++ rest) := by
    rw [hcons]
    exact peekChar_cons (isBlank_of_isDigit hdigit) _
  have hname : ¬startsName c = true := by
    intro hstart
    simp only [startsName, Bool.or_eq_true, beq_iff_eq, or_assoc] at hstart
    obtain rfl | rfl | rfl := hstart <;> exact absurd hdigit (by decide)
  rw [skipValue, bind_of_ok hpeek, if_neg hname, if_pos (by simp [startsNumber, hdigit]),
    bind_of_ok (show numeral .malformed (digits n ++ rest) = _ from
      Numeral.read_digits hends n .malformed)]
  rfl

theorem skipValue_quote (chars rest : List Char) :
    skipValue stack (quote chars ++ rest) = .ok ((.next, stack), rest) := by
  obtain ⟨found, hquoted⟩ := exists_quoted_unasked chars rest
  rw [quote_append, skipValue, bind_of_ok (peekChar_cons (by decide) _), if_neg (by decide),
    if_neg (by decide), if_pos rfl, bind_of_ok (skip_cons _ _), bind_of_ok hquoted]
  rfl

theorem goes_array (text : List Char) :
    Goes ⟨.value, stack, '[' :: text⟩ ⟨.firstItem, ']' :: stack, text⟩ where
  step := by
    change skipValue stack ('[' :: text) = _
    rw [skipValue, bind_of_ok (peekChar_cons (by decide) _), if_neg (by decide), if_neg (by decide),
      if_neg (by decide), if_pos rfl]
    rfl
  shorter := Nat.lt_succ_self _
  unfinished := nofun

theorem goes_object (text : List Char) :
    Goes ⟨.value, stack, '\x7b' :: text⟩ ⟨.firstKey, '\x7d' :: stack, text⟩ where
  step := by
    change skipValue stack ('\x7b' :: text) = _
    rw [skipValue, bind_of_ok (peekChar_cons (by decide) _), if_neg (by decide), if_neg (by decide),
      if_neg (by decide), if_neg (by decide), if_pos rfl]
    rfl
  shorter := Nat.lt_succ_self _
  unfinished := nofun

-- Whether a value is skipped wherever it stands.
def Skipped (j : Json) : Prop :=
  ∀ stack rest, EndsNumber rest →
    Relation.TransGen Goes ⟨.value, stack, compact j ++ rest⟩ ⟨.next, stack, rest⟩

-- The items of an array after the first.
theorem steps_otherItems {items : List Json} (hitems : ∀ j ∈ items, Skipped j) :
    Relation.TransGen Goes ⟨.next, ']' :: stack, otherItems items ++ ']' :: rest⟩
      ⟨.next, stack, rest⟩ := by
  induction items with
  | nil => exact .single (goes_close (by decide) (by decide))
  | cons j items ih =>
    obtain ⟨hj, hitems⟩ := List.forall_mem_cons.1 hitems
    have hends := endsNumber_otherItems items rest
    have hcons : otherItems (j :: items) ++ ']' :: rest =
        ',' :: (compact j ++ (otherItems items ++ ']' :: rest)) := by
      simp [otherItems]
    rw [hcons]
    exact .head goes_comma ((hj _ _ hends).trans (ih hitems))

-- The fields of an object after the first.
theorem steps_otherFields {fields : List (String × Json)} (hfields : ∀ f ∈ fields, Skipped f.2) :
    Relation.TransGen Goes ⟨.next, '\x7d' :: stack, otherFields fields ++ '\x7d' :: rest⟩
      ⟨.next, stack, rest⟩ := by
  induction fields with
  | nil => exact .single (goes_close (by decide) (by decide))
  | cons f fields ih =>
    obtain ⟨hf, hfields⟩ := List.forall_mem_cons.1 hfields
    have hends := endsNumber_otherFields fields rest
    have hcons : otherFields (f :: fields) ++ '\x7d' :: rest =
        ',' :: (quote f.1.toList ++
          ':' :: (compact f.2 ++ (otherFields fields ++ '\x7d' :: rest))) := by
      simp [otherFields]
    rw [hcons]
    exact .head goes_comma (.head (goes_key _) ((hf _ _ hends).trans (ih hfields)))

theorem skipped_array {items : List Json} (hitems : ∀ j ∈ items, Skipped j) :
    Skipped (.array items) := by
  intro stack rest _
  cases items with
  | nil =>
    have htext : compact (.array []) ++ rest = '[' :: ']' :: rest := by simp [compact, compactItems]
    rw [htext]
    exact .head (goes_array _) (.single goes_item_end)
  | cons j items =>
    obtain ⟨hj, hitems⟩ := List.forall_mem_cons.1 hitems
    have htext : compact (.array (j :: items)) ++ rest =
        '[' :: (compact j ++ (otherItems items ++ ']' :: rest)) := by
      simp [compact, compactItems_cons]
    have hends := endsNumber_otherItems items rest
    obtain ⟨c, cs, hcompact, hblank, hc⟩ := exists_cons_compact j
    have hfirst := hj (']' :: stack) _ hends
    rw [hcompact, List.cons_append] at hfirst
    rw [htext, hcompact, List.cons_append]
    obtain ⟨t, hgoes, hsteps⟩ := Relation.TransGen.head'_iff.1 hfirst
    have hitem := Relation.TransGen.head' (hgoes.firstItem hblank hc) hsteps
    exact .head (goes_array _) (hitem.trans (steps_otherItems hitems))

theorem skipped_object {fields : List (String × Json)} (hfields : ∀ f ∈ fields, Skipped f.2) :
    Skipped (.object fields) := by
  intro stack rest _
  cases fields with
  | nil =>
    have htext : compact (.object []) ++ rest = '\x7b' :: '\x7d' :: rest := by
      simp [compact, compactFields]
    rw [htext]
    exact .head (goes_object _) (.single goes_key_end)
  | cons f fields =>
    obtain ⟨hf, hfields⟩ := List.forall_mem_cons.1 hfields
    have htext : compact (.object (f :: fields)) ++ rest =
        '\x7b' :: (quote f.1.toList ++
          ':' :: (compact f.2 ++ (otherFields fields ++ '\x7d' :: rest))) := by
      simp [compact, compactFields_cons f.1 f.2]
    have hends := endsNumber_otherFields fields rest
    rw [htext]
    exact .head (goes_object _) (.head (goes_firstKey _)
      ((hf _ _ hends).trans (steps_otherFields hfields)))

theorem skipped : (j : Json) → Skipped j
  | .null => fun _ _ _ => .single (goes_single rfl (by simp [compact]))
  | .number n => fun stack rest hends => by
    have hvalue : skipValue stack (digits n ++ rest) = _ := skipValue_digits n hends
    exact .single (goes_single (by rwa [compact]) (by simpa [compact] using digits_ne_nil n))
  | .text s => fun stack rest _ => by
    have hvalue : skipValue stack (quote s.toList ++ rest) = _ := skipValue_quote s.toList rest
    exact .single (goes_single (by rwa [compact]) (by simp [compact, quote]))
  | .array items => skipped_array fun j hj => skipped j
  | .object fields => skipped_object fun f hf => skipped f.2
termination_by j => sizeOf j
decreasing_by
  · have hlt := List.sizeOf_lt_of_mem hj
    simp only [Json.array.sizeOf_spec]
    omega
  · have hlt := List.sizeOf_lt_of_mem hf
    have hpair : sizeOf f.2 < sizeOf f := by
      cases f
      simp
    simp only [Json.object.sizeOf_spec]
    omega

-- A value that nobody asks for is skipped, whatever it is.
theorem ignored_compact (j : Json) (hends : EndsNumber rest) :
    ignored (compact j ++ rest) = .ok ((), rest) := by
  rw [ignored, bind_of_ok (get_apply _)]
  exact skipWithin_of_steps (skipped j [] rest hends).to_reflTransGen (Nat.le_succ _)

end Reader

end Lifecycle.Json
