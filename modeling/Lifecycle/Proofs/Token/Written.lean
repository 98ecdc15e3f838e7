import Lifecycle.Proofs.Token.Literals
import Lifecycle.Text.Quoted
import Lifecycle.Token.Literal.Value

namespace Lifecycle.Literal

open Text Quoted

-- The value of some digits in base sixteen, after those of a number.
def hexValue (value : Nat) (digits : List Nat) : Nat :=
  digits.foldl (fun v d => v * 16 + d) value

theorem exists_hexDigits (n : Nat) :
    ∃ digits, hexDigits n = digits.map Nat.digitChar ∧ (∀ d ∈ digits, d < 16) ∧
      hexValue 0 digits = n := by
  induction n using Nat.strong_induction_on with
  | _ n ih =>
    by_cases hn : n < 16
    · exact ⟨[n], Nat.toDigits_of_lt_base hn, by simpa using hn, by simp [hexValue]⟩
    · obtain ⟨digits, hdigits, hlt, hvalue⟩ := ih (n / 16) (by omega)
      refine ⟨digits ++ [n % 16], ?_, ?_, ?_⟩
      · rw [hexDigits] at hdigits
        rw [hexDigits, Nat.toDigits_of_base_le (by decide) (by omega), hdigits]
        simp
      · exact List.forall_mem_append.2 ⟨hlt, by simp; omega⟩
      · rw [hexValue, List.foldl_append]
        simp only [hexValue] at hvalue
        simp only [hvalue, List.foldl_cons, List.foldl_nil]
        omega

theorem hexValue?_digitChar {d : Nat} (h : d < 16) : hexValue? d.digitChar = some d := by
  revert d
  decide

-- A digit in base sixteen ends no escape.
theorem digitChar_ne_mark {d : Nat} (h : d < 16) : d.digitChar ≠ '_' ∧ d.digitChar ≠ '\x7d' := by
  revert d
  decide

theorem scan_unicode {digits : List Nat} (hdigits : ∀ d ∈ digits, d < 16) (n value : Nat)
    (hn : n + digits.length ≤ 6) (rest : List Char) :
    scan (Cooked.step .text) (.escape (.unicode n value)) (digits.map Nat.digitChar ++ rest) =
      (scan (Cooked.step .text) (.escape (.unicode (n + digits.length) (hexValue value digits)))
        rest).map (· + digits.length) := by
  induction digits generalizing n value with
  | nil => simp [hexValue]
  | cons d digits ih =>
    rw [List.length_cons] at hn
    obtain ⟨hd, hdigits⟩ := List.forall_mem_cons.1 hdigits
    obtain ⟨hline, hbrace⟩ := digitChar_ne_mark hd
    have hstep : Cooked.step .text (.escape (.unicode n value)) d.digitChar =
        .next (.escape (.unicode (n + 1) (value * 16 + d))) := by
      have hsix : n ≠ 6 := by omega
      simp [Cooked.step, Escape.step, hline, hbrace, hexValue?_digitChar hd, hsix]
    simp only [List.map_cons, List.cons_append, scan, hstep]
    rw [ih hdigits (n + 1) (value * 16 + d) (by omega), Option.map_map]
    simp only [List.length_cons, hexValue, List.foldl_cons, Nat.add_assoc, Nat.add_comm 1]
    rfl

-- Every character has at most six digits.
theorem length_hexDigits (c : Char) : (hexDigits c.toNat).length ≤ 6 := by
  refine (Nat.length_toDigits_le_iff (by decide) (by decide)).2 ?_
  have hvalid := c.valid
  simp only [UInt32.isValidChar, Nat.isValidChar] at hvalid
  change c.val.toNat < 16 ^ 6
  omega

theorem hexDigits_ne_nil (n : Nat) : hexDigits n ≠ [] :=
  Nat.toDigits_ne_nil

-- Whether some characters between quotes are read without anything before or after them.
def IsPiece (cs : List Char) : Prop :=
  ∀ rest, scan (Cooked.step .text) .body (cs ++ rest) =
    (scan (Cooked.step .text) .body rest).map (· + cs.length)

theorem isPiece_unicodeEscape (c : Char) : IsPiece (unicodeEscape c) := by
  intro rest
  obtain ⟨digits, hdigits, hlt, hvalue⟩ := exists_hexDigits c.toNat
  have hlen := length_hexDigits c
  have hpos : 0 < digits.length := by
    have hne := hexDigits_ne_nil c.toNat
    rw [hdigits] at hne
    exact List.length_pos_iff.2 fun hnil => hne (by simp [hnil])
  rw [hdigits, List.length_map] at hlen
  have hvalid : c.toNat.isValidChar := c.valid
  have hclose : Cooked.step .text (.escape (.unicode digits.length c.toNat)) '\x7d' = .next .body := by
    simp [Cooked.step, Escape.step, hpos, hvalid]
  have hinside : scan (Cooked.step .text) (.escape (.unicode 0 0))
      (digits.map Nat.digitChar ++ '\x7d' :: rest) =
        (scan (Cooked.step .text) .body rest).map (· + (digits.length + 1)) := by
    rw [scan_unicode hlt 0 0 (by omega), hvalue, Nat.zero_add]
    simp [scan, hclose, Function.comp_def, Nat.add_assoc, Nat.add_comm 1]
  simp [unicodeEscape, hdigits, scan, Cooked.step, Cooked.stepBody, Escape.step, hinside,
    Function.comp_def, Nat.add_assoc]

theorem isPiece_simple {c : Char} (h : isSimpleEscape .text c = true) : IsPiece ['\\', c] := by
  have hc : c = 'n' ∨ c = 'r' ∨ c = 't' ∨ c = '\\' ∨ c = '\x27' ∨ c = '\x22' ∨ c = '0' := by
    simpa [isSimpleEscape, or_assoc] using h
  have hstep : Cooked.step .text (.escape .start) c = .next .body := by
    obtain rfl | rfl | rfl | rfl | rfl | rfl | rfl := hc <;> rfl
  have hslash : Cooked.step .text .body '\\' = .next (.escape .start) := rfl
  intro rest
  simp [scan, hslash, hstep, Function.comp_def]

theorem isPiece_nulEscape (next : List Char) : IsPiece (nulEscape next) := by
  have hhex : IsPiece ['\\', 'x', '0', '0'] := fun rest => by
    simp [scan, Cooked.step, Cooked.stepBody, Escape.step, hexValue?, Function.comp_def]
  unfold nulEscape
  split
  · split
    · exact hhex
    · exact isPiece_simple (by decide)
  · exact isPiece_simple (by decide)

theorem isPiece_escapeChar (c : Char) (next : List Char) : IsPiece (escapeChar c next) := by
  unfold escapeChar
  split
  · exact isPiece_nulEscape next
  split
  · exact isPiece_simple (by decide)
  split
  · exact isPiece_simple (by decide)
  · rename_i hreturn
    split
    · exact isPiece_simple (by decide)
    split
    · rename_i hmark
      exact isPiece_simple (by obtain rfl | rfl := hmark <;> decide)
    · rename_i hmark
      obtain ⟨hslash, hquote⟩ := not_or.1 hmark
      split
      · intro rest
        simp [scan, Cooked.step, Cooked.stepBody, hreturn, hslash, hquote, Flavour.allows]
      · exact isPiece_unicodeEscape c

theorem scan_escape (text rest : List Char) :
    scan (Cooked.step .text) .body (escape text ++ '\x22' :: rest) =
      some ((escape text).length + 1) := by
  induction text with
  | nil => rfl
  | cons c text ih =>
    rw [escape, List.append_assoc, isPiece_escapeChar, ih]
    simp
    omega

theorem length?_quote (text : List Char) : length? (quote text) = some (quote text).length := by
  have hquoted : quotedLength (quote text) = some (quote text).length := by
    simp [quotedLength, quote, cookedLength, scan_escape]
  refine length?_eq_some_iff.2 (.inl ⟨_, hquoted, ?_⟩)
  simp [identifierLength]

theorem decode_unicode {digits : List Nat} (hdigits : ∀ d ∈ digits, d < 16) (value : Nat)
    (rest : List Char) :
    decode (.unicode value) (digits.map Nat.digitChar ++ rest) =
      decode (.unicode (hexValue value digits)) rest := by
  induction digits generalizing value with
  | nil => rfl
  | cons d digits ih =>
    obtain ⟨hd, hdigits⟩ := List.forall_mem_cons.1 hdigits
    have hstep : Decoding.step (.unicode value) d.digitChar = (.unicode (value * 16 + d), []) := by
      simp [Decoding.step, (digitChar_ne_mark hd).2, hexValue?_digitChar hd]
    rw [List.map_cons, List.cons_append, decode, hstep]
    exact ih hdigits _

-- Whether some characters between quotes stand for one character.
def StandsFor (cs : List Char) (c : Char) : Prop :=
  ∀ rest, decode .body (cs ++ rest) = c :: decode .body rest

theorem standsFor_unicodeEscape (c : Char) : StandsFor (unicodeEscape c) c := by
  intro rest
  obtain ⟨digits, hdigits, hlt, hvalue⟩ := exists_hexDigits c.toNat
  have hinside : decode (.unicode 0) (digits.map Nat.digitChar ++ '\x7d' :: rest) =
      c :: decode .body rest := by
    rw [decode_unicode hlt, hvalue]
    simp [decode, Decoding.step]
  simpa [unicodeEscape, hdigits, decode, Decoding.step, Decoding.stepBody] using hinside

theorem standsFor_nulEscape (next : List Char) : StandsFor (nulEscape next) '\x00' := by
  unfold nulEscape
  split
  · split
    · exact fun rest => rfl
    · exact fun rest => rfl
  · exact fun rest => rfl

theorem standsFor_escapeChar (c : Char) (next : List Char) :
    StandsFor (escapeChar c next) c := by
  unfold escapeChar
  split
  · rename_i hnul
    exact hnul ▸ standsFor_nulEscape next
  split
  · rename_i htab
    exact htab ▸ fun rest => rfl
  split
  · rename_i hreturn
    exact hreturn ▸ fun rest => rfl
  · rename_i hreturn
    split
    · rename_i hline
      exact hline ▸ fun rest => rfl
    split
    · rename_i hmark
      obtain rfl | rfl := hmark <;> exact fun rest => rfl
    · rename_i hmark
      obtain ⟨hslash, hquote⟩ := not_or.1 hmark
      split
      · intro rest
        simp [decode, Decoding.step, Decoding.stepBody, hreturn, hslash, hquote]
      · exact standsFor_unicodeEscape c

-- What is written between quotes is the text that was to be written.
theorem decode_escape (text rest : List Char) :
    decode .body (escape text ++ '\x22' :: rest) = text := by
  have hfinished : ∀ cs, decode .finished cs = [] := fun cs => by
    induction cs with
    | nil => rfl
    | cons c cs ih => simpa [decode, Decoding.step] using ih
  induction text with
  | nil => simpa [escape, decode, Decoding.step, Decoding.stepBody] using hfinished rest
  | cons c text ih => rw [escape, List.append_assoc, standsFor_escapeChar, ih]

theorem quote_injective : Function.Injective quote := by
  intro text more h
  have hinside : escape text ++ ['\x22'] = escape more ++ ['\x22'] := (List.cons.inj h).2
  rw [← decode_escape text [], hinside, decode_escape more []]

-- As a literal it is a string of that text, without a suffix.
theorem ofChars_quote (text : List Char) : ofChars (quote text) = .str text [] := by
  have hsuffix : stringSuffix (escape text ++ ['\x22']) = [] := by simp [stringSuffix]
  rw [quote, List.cons_append, ofChars, decode_escape, hsuffix]

theorem mantissa_of_isDigit {cs : List Char} (h : ∀ c ∈ cs, c.isDigit = true) :
    mantissa false cs = some (cs.length, false, false) := by
  induction cs with
  | nil => rfl
  | cons c cs ih =>
    obtain ⟨hc, hcs⟩ := List.forall_mem_cons.1 h
    simp [mantissa, hc, ih hcs]

theorem digitsLength_of_isDigit {cs : List Char} (h : ∀ c ∈ cs, c.isDigit = true) :
    digitsLength 10 false cs = some cs.length := by
  induction cs with
  | nil => rfl
  | cons c cs ih =>
    obtain ⟨hc, hcs⟩ := List.forall_mem_cons.1 h
    have hten : ¬ 10 ≤ c.toNat - '0'.toNat :=
      of_isDigit (P := fun c => ¬ 10 ≤ c.toNat - '0'.toNat) (by decide) hc
    simp only [digitsLength, hc, if_true, if_neg hten, ih hcs, Option.map_some, List.length_cons]

-- Digits alone are a whole number.
theorem length?_of_isDigit {cs : List Char} (hne : cs ≠ []) (h : ∀ c ∈ cs, c.isDigit = true) :
    length? cs = some cs.length := by
  cases cs with
  | nil => exact absurd rfl hne
  | cons c cs =>
    obtain ⟨hc, hcs⟩ := List.forall_mem_cons.1 h
    have hten : ¬ 10 ≤ c.toNat - '0'.toNat :=
      of_isDigit (P := fun c => ¬ 10 ≤ c.toNat - '0'.toNat) (by decide) hc
    have hfloat : floatLength (c :: cs) = none := by
      simp [floatLength, hc, mantissa_of_isDigit hcs]
    have hwhole : wholeLength (c :: cs) = some (c :: cs).length := by
      have hmarks : ∀ b ∈ baseMarks, b.isDigit = false := by decide
      rw [wholeLength_of_no_mark]
      · simp only [digitsLength, hc, if_true, if_neg hten, digitsLength_of_isDigit hcs,
          Option.map_some, List.length_cons]
      · intro b hb rest hmark
        have hdigit := hcs b (by simp [(List.cons.inj hmark).2])
        simp [hmarks b hb] at hdigit
    rw [length?_of_number hc, hfloat, hwhole]
    simp [withSuffix, identifierLength]

theorem length?_toString (n : Nat) :
    length? (toString n).toList = some (toString n).toList.length := by
  rw [Nat.toString_eq_ofList_toDigits, String.toList_ofList]
  exact length?_of_isDigit Nat.toDigits_ne_nil fun c hc =>
    Nat.isDigit_of_mem_toDigits (by decide) (by decide) hc

end Lifecycle.Literal
