import Lifecycle.Json.Schema
import Mathlib

namespace Lifecycle.Json

theorem unit?_take (cs : List Char) : unit? (cs.take 4) = unit? cs := by
  unfold unit? isShort
  rw [List.take_take]
  rfl

theorem unit?_control {n : Nat} (h : n < 0x20) (rest : List Char) :
    unit? ('0' :: '0' :: hexDigit (n / 16) :: hexDigit (n % 16) :: rest) = .ok n := by
  have hall : ∀ n < 0x20, unit? ['0', '0', hexDigit (n / 16), hexDigit (n % 16)] = .ok n := by
    decide
  rw [← unit?_take]
  exact hall n h

theorem unicodeEscape_control {c : Char} (h : c.toNat < 0x20) (rest : List Char) :
    unicodeEscape true ('0' :: '0' :: hexDigit (c.toNat / 16) :: hexDigit (c.toNat % 16) :: rest) =
      .ok (c, 4) := by
  have hlow : ¬(0xdc00 ≤ c.toNat ∧ c.toNat ≤ 0xdfff) := by omega
  have hbasic : c.toNat < 0xd800 ∨ 0xdbff < c.toNat := by omega
  simp [unicodeEscape, unit?_control h, hlow, hbasic, bind, Except.bind, pure, Except.pure]

theorem firstChar_self {c : Char} (hquote : c ≠ '\x22') (hslash : c ≠ '\\')
    (hprinted : ¬c.toNat < 0x20) (rest : List Char) :
    firstChar true (c :: rest) = .ok (some (c, 1)) := by
  unfold firstChar
  split
  all_goals simp_all

-- What is written for a character is read as this character, whatever follows.
theorem firstChar_escapeChar (c : Char) (rest : List Char) :
    firstChar true (escapeChar c ++ rest) = .ok (some (c, (escapeChar c).length)) := by
  unfold escapeChar
  split
  · subst_vars; rfl
  rename_i hquote
  split
  · subst_vars; rfl
  rename_i hslash
  iterate 5
    split
    · subst_vars; rfl
  split
  · rename_i hcontrol
    have hread := unicodeEscape_control hcontrol rest
    simp [firstChar, hread, bind, Except.bind, pure, Except.pure]
  · rename_i hprinted
    exact firstChar_self hquote hslash hprinted rest

theorem escapeChar_ne_nil (c : Char) : escapeChar c ≠ [] := by
  intro h
  simpa [h, firstChar] using firstChar_escapeChar c []

-- A step for each character that is read, and one for the closing quote.
theorem unquoteWithin_escape {fuel : Nat} {chars : List Char} (h : chars.length < fuel)
    (rest : List Char) :
    unquoteWithin true fuel (chars.flatMap escapeChar ++ '\x22' :: rest) = .ok (chars, rest) := by
  induction chars generalizing fuel with
  | nil =>
    obtain ⟨fuel, rfl⟩ := Nat.exists_eq_succ_of_ne_zero (Nat.ne_zero_of_lt h)
    rfl
  | cons c chars ih =>
    obtain ⟨fuel, rfl⟩ := Nat.exists_eq_succ_of_ne_zero (Nat.ne_zero_of_lt h)
    have hrest := ih (Nat.lt_of_succ_lt_succ h)
    rw [List.flatMap_cons, List.append_assoc, unquoteWithin, firstChar_escapeChar]
    simp only [List.drop_left, hrest, Except.map]

theorem length_le_length_escape (chars : List Char) :
    chars.length ≤ (chars.flatMap escapeChar).length := by
  induction chars with
  | nil => simp
  | cons c chars ih =>
    have hpos := List.length_pos_iff.2 (escapeChar_ne_nil c)
    simp only [List.flatMap_cons, List.length_append, List.length_cons]
    omega

theorem unquote_escape (chars rest : List Char) :
    unquote true (chars.flatMap escapeChar ++ '\x22' :: rest) = .ok (chars, rest) := by
  refine unquoteWithin_escape ?_ rest
  have hle := length_le_length_escape chars
  simp only [List.length_append]
  omega

theorem quote_append (chars rest : List Char) :
    quote chars ++ rest = '\x22' :: (chars.flatMap escapeChar ++ '\x22' :: rest) := by
  simp [quote]

-- Whether a text does not go on with a digit, a point or an exponent.
def EndsNumber (rest : List Char) : Prop :=
  ∀ c ∈ rest.head?, c ≠ '.' ∧ c ≠ 'e' ∧ c ≠ 'E' ∧ c.isDigit = false

theorem isDigit_of_mem_digits {n : Nat} {c : Char} (h : c ∈ digits n) : c.isDigit = true :=
  Nat.isDigit_of_mem_toDigits (by decide) (by decide) h

theorem digits_ne_nil (n : Nat) : digits n ≠ [] :=
  Nat.toDigits_ne_nil

theorem digits_of_ten_le {n : Nat} (h : 10 ≤ n) :
    digits n = digits (n / 10) ++ [(n % 10).digitChar] :=
  Nat.toDigits_of_base_le (by decide) h

theorem toNat_digitChar {d : Nat} (h : d < 10) : d.digitChar.toNat - 48 = d := by
  revert d
  decide

-- Only zero starts with a zero.
theorem eq_zero_of_head?_digits {n : Nat} (h : (digits n).head? = some '0') : n = 0 := by
  induction n using Nat.strongRecOn with
  | ind n ih =>
    by_cases hn : n < 10
    · have hall : ∀ n < 10, n.digitChar = '0' → n = 0 := by decide
      rw [digits, Nat.toDigits_of_lt_base hn] at h
      exact hall n hn (by simpa using h)
    · rw [digits_of_ten_le (by omega), List.head?_append_of_ne_nil _ (digits_ne_nil _)] at h
      have := ih (n / 10) (by omega) h
      omega

section Ends

variable {rest : List Char} (hends : EndsNumber rest) (n : Nat)
include hends

theorem takeWhile_digits : (digits n ++ rest).takeWhile Char.isDigit = digits n := by
  rw [List.takeWhile_append_of_pos fun c hc => isDigit_of_mem_digits hc]
  cases rest with
  | nil => simp
  | cons c rest => simp [(hends c rfl).2.2.2]

theorem dropWhile_digits : (digits n ++ rest).dropWhile Char.isDigit = rest := by
  rw [List.dropWhile_append_of_pos fun c hc => isDigit_of_mem_digits hc]
  cases rest with
  | nil => simp
  | cons c rest => simp [(hends c rfl).2.2.2]

namespace Numeral

theorem readFraction_of_ends (atEnd : Fault) (m : Numeral) :
    readFraction atEnd m rest = .ok (m, rest) := by
  cases rest with
  | nil => rfl
  | cons c rest =>
    obtain ⟨hpoint, he, hE, -⟩ := hends c rfl
    simp [readFraction, readTail, hpoint, he, hE]

theorem read_digits (atEnd : Fault) :
    read atEnd (digits n ++ rest) = .ok (⟨false, digits n, none, none⟩, rest) := by
  obtain ⟨c, more, hcons⟩ := List.exists_cons_of_ne_nil (digits_ne_nil n)
  have hdigit : c.isDigit = true := isDigit_of_mem_digits (n := n) (by simp [hcons])
  have hminus : c ≠ '-' := by
    rintro rfl
    exact absurd hdigit (by decide)
  have hunsigned : read atEnd (digits n ++ rest) = readUnsigned atEnd false (digits n ++ rest) := by
    rw [hcons]
    simp [read, hminus]
  have htake := takeWhile_digits hends n
  have hdrop := dropWhile_digits hends n
  rw [hunsigned]
  by_cases hzero : c = '0'
  · obtain rfl : n = 0 := eq_zero_of_head?_digits (by simp [hcons, hzero])
    have hread := readFraction_of_ends hends atEnd ⟨false, ['0'], none, none⟩
    cases rest with
    | nil => exact hread
    | cons d rest =>
      obtain ⟨-, -, -, hnext⟩ := hends d rfl
      simpa [digits, readUnsigned, hnext] using hread
  · rw [hcons, List.cons_append] at htake hdrop ⊢
    simp only [readUnsigned, hdigit, hzero, htake, hdrop]
    simp [readFraction_of_ends hends]

end Numeral

end Ends

namespace Numeral

theorem keepWhole_append (ds : List Char) (c : Char) :
    keepWhole (ds ++ [c]) =
      if (keepWhole ds).2 = 0 ∧ (keepWhole ds).1 * 10 + (c.toNat - 48) ≤ keptMax then
        ((keepWhole ds).1 * 10 + (c.toNat - 48), 0)
      else ((keepWhole ds).1, (keepWhole ds).2 + 1) := by
  unfold keepWhole
  rw [List.foldl_append]
  rfl

theorem keepWhole_digits {n : Nat} (h : n ≤ keptMax) : keepWhole (digits n) = (n, 0) := by
  induction n using Nat.strongRecOn with
  | ind n ih =>
    by_cases hn : n < 10
    · have hall : ∀ n < 10, keepWhole [n.digitChar] = (n, 0) := by decide
      rw [digits, Nat.toDigits_of_lt_base hn]
      exact hall n hn
    · have hvalue : n / 10 * 10 + ((n % 10).digitChar.toNat - 48) = n := by
        rw [toNat_digitChar (by omega)]
        omega
      rw [digits_of_ten_le (by omega), keepWhole_append, ih (n / 10) (by omega) (by omega), hvalue]
      simp [h]

theorem round53_of_lt {n : Nat} (h : n < 2 ^ 53) : round53 n = n := by
  have hlog : n.log2 + 1 - 53 = 0 := by
    by_cases hn : n = 0
    · simp [hn]
    · have := (Nat.log2_lt hn).2 h
      omega
  simp [round53, hlog, Nat.mod_one]

-- A whole number of few digits is in the range of binary floating point.
theorem isOutOfRange_digits {n : Nat} (h : n < UInt32.size) :
    isOutOfRange ⟨false, digits n, none, none⟩ = false := by
  have hsize : n < 2 ^ 53 := Nat.lt_trans h (by decide)
  have hend : ¬rangeEnd ≤ n := Nat.not_le.2 (Nat.lt_trans hsize (by decide +kernel))
  have hkeep : keepWhole (digits n) = (n, 0) :=
    keepWhole_digits (Nat.le_trans (Nat.le_of_lt h) (by decide))
  have hone : round53 1 = 1 := round53_of_lt (by decide)
  simp [isOutOfRange, hkeep, keepFraction, round53_of_lt hsize, hone, hend]

theorem nat?_digits (n : Nat) : nat? ⟨false, digits n, none, none⟩ = some n := by
  simp [nat?, digits, Nat.ofDigitChars_ten_toDigits]

end Numeral

theorem isBlank_of_isDigit {c : Char} (h : c.isDigit = true) : isBlank c = false := by
  by_contra hblank
  simp only [isBlank, Bool.not_eq_false, Bool.or_eq_true, beq_iff_eq, or_assoc] at hblank
  obtain rfl | rfl | rfl | rfl := hblank <;> exact absurd h (by decide)

namespace Reader

variable {α β : Type}

theorem bind_of_ok {r : Reader α} {next : α → Reader β} {cs rest : List Char} {a : α}
    (h : r cs = .ok (a, rest)) : (r >>= next) cs = next a rest := by
  change (r cs >>= fun (a, rest) => next a rest) = _
  rw [h]
  rfl

theorem peekChar_cons {c : Char} (h : isBlank c = false) (rest : List Char) :
    peekChar (c :: rest) = .ok (c, c :: rest) := by
  simp [peekChar, peek, h, bind, StateT.bind, Except.bind, modify, modifyGet,
    MonadStateOf.modifyGet, StateT.modifyGet, get, getThe, MonadStateOf.get, StateT.get, pure,
    StateT.pure, Except.pure]

theorem get_apply (cs : List Char) : (get : Reader (List Char)) cs = .ok (cs, cs) :=
  rfl

theorem skip_cons (c : Char) (rest : List Char) : skip (c :: rest) = .ok ((), rest) :=
  rfl

theorem quoted_escape (chars rest : List Char) :
    quoted true (chars.flatMap escapeChar ++ '\x22' :: rest) = .ok (String.ofList chars, rest) := by
  simp [quoted, unquote_escape, bind, Except.bind, pure, Except.pure]

theorem string_quote (text : String) (rest : List Char) :
    string (quote text.toList ++ rest) = .ok (text, rest) := by
  have hquoted := quoted_escape text.toList rest
  rw [String.ofList_toList] at hquoted
  rw [quote_append, string, bind_of_ok (peekChar_cons (by decide) _), if_pos rfl, bind_of_ok (skip_cons _ _), hquoted]

theorem number_digits {n : Nat} (h : n < UInt32.size) {rest : List Char} (hends : EndsNumber rest) :
    number (digits n ++ rest) = .ok (.number n, rest) := by
  obtain ⟨c, more, hcons⟩ := List.exists_cons_of_ne_nil (digits_ne_nil n)
  have hdigit : c.isDigit = true := isDigit_of_mem_digits (n := n) (by simp [hcons])
  have hpeek : peekChar (digits n ++ rest) = .ok (c, digits n ++ rest) := by
    rw [hcons]
    exact peekChar_cons (isBlank_of_isDigit hdigit) _
  have hstart : startsNumber c = true := by simp [startsNumber, hdigit]
  rw [number, bind_of_ok hpeek, if_pos hstart,
    bind_of_ok (show numeral .truncated (digits n ++ rest) = _ from
      Numeral.read_digits hends n .truncated)]
  simp [Numeral.isOutOfRange_digits h, Numeral.nat?_digits, h, pure, StateT.pure, Except.pure]

-- What follows the last item that was read of an array: the others, each after a comma.
def otherTexts (texts : List String) : List Char :=
  texts.flatMap fun t => ',' :: quote t.toList

theorem hasItem_end (first : Bool) (rest : List Char) :
    hasItem first (']' :: rest) = .ok (false, ']' :: rest) := by
  rw [hasItem, bind_of_ok (peekChar_cons (by decide) _), if_pos rfl]
  rfl

theorem hasItem_first (chars rest : List Char) :
    hasItem true (quote chars ++ rest) = .ok (true, quote chars ++ rest) := by
  rw [quote_append, hasItem, bind_of_ok (peekChar_cons (by decide) _), if_neg (by decide),
    if_pos rfl]
  rfl

theorem hasItem_next (chars rest : List Char) :
    hasItem false (',' :: (quote chars ++ rest)) = .ok (true, quote chars ++ rest) := by
  rw [quote_append, hasItem, bind_of_ok (peekChar_cons (by decide) _), if_neg (by decide),
    if_neg (by decide), if_pos rfl, bind_of_ok (skip_cons _ _),
    bind_of_ok (peekChar_cons (by decide) _), if_neg (by decide)]
  rfl

theorem itemsWithin_otherTexts {fuel : Nat} {texts : List String} (h : texts.length < fuel)
    (rest : List Char) :
    itemsWithin string fuel false (otherTexts texts ++ ']' :: rest) = .ok (texts, ']' :: rest) := by
  induction texts generalizing fuel with
  | nil =>
    obtain ⟨fuel, rfl⟩ := Nat.exists_eq_succ_of_ne_zero (Nat.ne_zero_of_lt h)
    rw [otherTexts, List.flatMap_nil, List.nil_append, itemsWithin, bind_of_ok (hasItem_end _ _)]
    rfl
  | cons t texts ih =>
    obtain ⟨fuel, rfl⟩ := Nat.exists_eq_succ_of_ne_zero (Nat.ne_zero_of_lt h)
    have hrest := ih (Nat.lt_of_succ_lt_succ h)
    have hcons : otherTexts (t :: texts) ++ ']' :: rest =
        ',' :: (quote t.toList ++ (otherTexts texts ++ ']' :: rest)) := by
      simp [otherTexts]
    rw [hcons, itemsWithin, bind_of_ok (hasItem_next _ _), if_pos rfl,
      bind_of_ok (string_quote t _), bind_of_ok hrest]
    rfl

theorem compactItems_texts (t : String) (texts : List String) :
    compactItems ((t :: texts).map .text) = quote t.toList ++ otherTexts texts := by
  induction texts generalizing t with
  | nil => simp [compactItems, compact, otherTexts]
  | cons u texts ih =>
    simp only [List.map_cons] at ih
    simp [compactItems, compact, otherTexts, ih]

theorem length_le_length_otherTexts (texts : List String) :
    texts.length ≤ (otherTexts texts).length := by
  induction texts with
  | nil => simp
  | cons t texts ih =>
    simp only [otherTexts, List.flatMap_cons, List.length_append, List.length_cons] at ih ⊢
    omega

theorem array_texts (texts : List String) (rest : List Char) :
    array string ('[' :: compactItems (texts.map .text) ++ ']' :: rest) = .ok (texts, rest) := by
  have hend : ∀ rest, endArray (']' :: rest) = .ok ((), rest) := fun rest => by
    rw [endArray, bind_of_ok (peekChar_cons (by decide) _), if_pos rfl]
    rfl
  have hitems : ∀ fuel, texts.length < fuel →
      itemsWithin string fuel true (compactItems (texts.map .text) ++ ']' :: rest) =
        .ok (texts, ']' :: rest) := by
    intro fuel hfuel
    obtain ⟨fuel, rfl⟩ := Nat.exists_eq_succ_of_ne_zero (Nat.ne_zero_of_lt hfuel)
    cases texts with
    | nil =>
      rw [List.map_nil, compactItems, List.nil_append, itemsWithin, bind_of_ok (hasItem_end _ _)]
      rfl
    | cons t texts =>
      have hrest := itemsWithin_otherTexts (Nat.lt_of_succ_lt_succ hfuel) rest
      rw [compactItems_texts, List.append_assoc, itemsWithin, bind_of_ok (hasItem_first _ _),
        if_pos rfl, bind_of_ok (string_quote t _), bind_of_ok hrest]
      rfl
  have hlength : texts.length ≤ (compactItems (texts.map .text)).length := by
    cases texts with
    | nil => simp
    | cons t texts =>
      have hothers := length_le_length_otherTexts texts
      rw [compactItems_texts]
      simp only [quote, List.length_append, List.length_cons, List.length_nil]
      omega
  rw [List.cons_append, array, bind_of_ok (skip_cons _ _), bind_of_ok (get_apply _),
    bind_of_ok (hitems _ (by simp only [List.length_append, List.length_cons]; omega)),
    bind_of_ok (hend rest)]
  rfl

end Reader

end Lifecycle.Json
