import Lifecycle.Proofs.Token.Literals.Suffixes

namespace Lifecycle.Literal

open Text Lexer

-- What the digits of a whole number do with the next character.
inductive DigitStep (base : Nat) (empty : Bool) (c : Char) : Prop where
  | stop (hempty : empty = false) (h : ∀ cs, digitsLength base empty (c :: cs) = some 0)
  | spoil (h : ∀ cs, digitsLength base empty (c :: cs) = none)
  | more (hc : isIdentifierRest c = true) (empty' : Bool)
      (h : ∀ cs, digitsLength base empty (c :: cs) = (digitsLength base empty' cs).map (· + 1))

theorem isIdentifierRest_of_hexValue? {c : Char} {v : Nat} (h : hexValue? c = some v) :
    isIdentifierRest c = true := by
  have hascii : c.toNat < 128 := by
    unfold hexValue? at h
    split at h
    · rename_i hc
      exact lt_of_le_of_lt hc.2 (by decide)
    split at h
    · rename_i hc
      exact lt_of_le_of_lt hc.2 (by decide)
    split at h
    · rename_i hc
      exact lt_of_le_of_lt hc.2 (by decide)
    · cases h
  have hall : ∀ n < 128, (hexValue? (Char.ofNat n)).isSome = true →
      isIdentifierRest (Char.ofNat n) = true := by decide
  have hc := hall c.toNat hascii
  rw [Char.ofNat_toNat] at hc
  exact hc (by simp [h])

theorem digitStep (base : Nat) (empty : Bool) (c : Char) : DigitStep base empty c := by
  have hstop : (∀ cs, digitsLength base empty (c :: cs) = if empty then none else some 0) →
      DigitStep base empty c := by
    intro h
    cases empty with
    | true => exact .spoil h
    | false => exact .stop rfl h
  by_cases hdigit : c.isDigit = true
  · by_cases hbase : base ≤ c.toNat - '0'.toNat
    · exact .spoil fun cs => by rw [digitsLength, if_pos hdigit, if_pos hbase]
    · exact .more (isIdentifierRest_of_isDigit hdigit) false fun cs => by
        rw [digitsLength, if_pos hdigit, if_neg hbase]
  by_cases hline : c = '_'
  · by_cases hempty : empty = true ∧ base = 10
    · exact .spoil fun cs => by rw [digitsLength, if_neg hdigit, if_pos hline, if_pos hempty]
    · exact .more (hline ▸ by decide) empty fun cs => by
        rw [digitsLength, if_neg hdigit, if_pos hline, if_neg hempty]
  cases hv : hexValue? c with
  | none => exact hstop fun cs => by rw [digitsLength, if_neg hdigit, if_neg hline, hv]
  | some v =>
    by_cases hbase : v < base
    · exact .more (isIdentifierRest_of_hexValue? hv) false fun cs => by
        simp only [digitsLength, hdigit, hline, hv, hbase, if_true, if_false, Bool.false_eq_true]
    · exact hstop fun cs => by
        simp only [digitsLength, hdigit, hline, hv, hbase, if_false, Bool.false_eq_true]

theorem digitsLength_of_stops {tail : List Char} (h : Stops tail) (base : Nat) :
    digitsLength base false tail = some 0 := by
  cases tail with
  | nil => rfl
  | cons c tail => obtain rfl | rfl | rfl | rfl := h c rfl <;> simp [digitsLength, hexValue?]

theorem digitsLength_pos {base : Nat} {cs : List Char} {n : Nat}
    (h : digitsLength base true cs = some n) : 0 < n := by
  cases cs with
  | nil => simp [digitsLength] at h
  | cons c cs =>
    obtain ⟨hempty, -⟩ | hs | ⟨-, empty', hs⟩ := digitStep base true c
    · cases hempty
    · simp [hs] at h
    · obtain ⟨m, -, rfl⟩ := Option.map_eq_some_iff.1 (hs _ ▸ h)
      omega

theorem digitsLength_append {base : Nat} {empty : Bool} {u rest tail : List Char} {n : Nat}
    (h : digitsLength base empty (u ++ rest) = some n) (hn : n ≤ u.length) (htail : Stops tail) :
    digitsLength base empty (u ++ tail) = some n := by
  induction u generalizing empty n with
  | nil =>
    obtain rfl : n = 0 := by simpa using hn
    cases empty with
    | true => exact absurd (digitsLength_pos h) (by simp)
    | false => exact digitsLength_of_stops htail base
  | cons c u ih =>
    rw [List.cons_append] at h ⊢
    obtain ⟨-, hs⟩ | hs | ⟨-, empty', hs⟩ := digitStep base empty c
    · rwa [hs] at h ⊢
    · rwa [hs] at h ⊢
    · rw [hs, Option.map_eq_some_iff] at h ⊢
      obtain ⟨m, hm, rfl⟩ := h
      exact ⟨m, ih hm (by simpa using hn), rfl⟩

theorem digitsLength_le {base : Nat} {empty : Bool} {cs : List Char} {n : Nat}
    (h : digitsLength base empty cs = some n) : n ≤ cs.length := by
  induction cs generalizing empty n with
  | nil =>
    cases empty with
    | true => simp [digitsLength] at h
    | false => simpa [digitsLength, eq_comm] using h
  | cons c cs ih =>
    obtain ⟨-, hs⟩ | hs | ⟨-, empty', hs⟩ := digitStep base empty c
    · obtain rfl : 0 = n := by simpa [hs] using h
      simp
    · simp [hs] at h
    · obtain ⟨m, hm, rfl⟩ := Option.map_eq_some_iff.1 (hs _ ▸ h)
      simpa using ih hm

-- The digits of a whole number could be part of a name.
theorem all_of_digitsLength {base : Nat} {empty : Bool} {cs : List Char} {n : Nat}
    (h : digitsLength base empty cs = some n) : ∀ c ∈ cs.take n, isIdentifierRest c = true := by
  induction cs generalizing empty n with
  | nil => simp
  | cons c cs ih =>
    obtain ⟨-, hs⟩ | hs | ⟨hc, empty', hs⟩ := digitStep base empty c
    · obtain rfl : 0 = n := by simpa [hs] using h
      simp
    · simp [hs] at h
    · obtain ⟨m, hm, rfl⟩ := Option.map_eq_some_iff.1 (hs _ ▸ h)
      simpa using ⟨hc, ih hm⟩

-- The marks of the bases other than ten.
def baseMarks : List Char := ['x', 'o', 'b']

theorem wholeLength_of_no_mark {cs : List Char} (h : ∀ b ∈ baseMarks, ∀ cs', cs ≠ '0' :: b :: cs') :
    wholeLength cs = digitsLength 10 true cs := by
  unfold wholeLength
  split
  · exact absurd rfl (h 'x' (by decide) _)
  · exact absurd rfl (h 'o' (by decide) _)
  · exact absurd rfl (h 'b' (by decide) _)
  · rfl

theorem exists_base (b : Char) (hb : b ∈ baseMarks) :
    ∃ base, ∀ cs, wholeLength ('0' :: b :: cs) = (digitsLength base true cs).map (· + 2) := by
  simp only [baseMarks, List.mem_cons, List.not_mem_nil, or_false] at hb
  obtain rfl | rfl | rfl := hb
  · exact ⟨16, fun cs => rfl⟩
  · exact ⟨8, fun cs => rfl⟩
  · exact ⟨2, fun cs => rfl⟩

theorem wholeLength_append {u rest tail : List Char} {n : Nat}
    (h : wholeLength (u ++ rest) = some n) (hn : n ≤ u.length) (htail : Stops tail) :
    wholeLength (u ++ tail) = some n := by
  by_cases hmark : ∃ b ∈ baseMarks, ∃ cs, u ++ rest = '0' :: b :: cs
  · obtain ⟨b, hb, cs, hcs⟩ := hmark
    obtain ⟨base, hbase⟩ := exists_base b hb
    rw [hcs, hbase] at h
    obtain ⟨m, hm, rfl⟩ := Option.map_eq_some_iff.1 h
    match u, hn with
    | c :: d :: u, hn =>
      obtain ⟨rfl, rfl, rfl⟩ : c = _ ∧ d = _ ∧ u ++ rest = _ := by simpa using hcs
      rw [List.cons_append, List.cons_append, hbase,
        digitsLength_append hm (by simpa using hn) htail]
      rfl
    | [_], hn => simp at hn
  · have hno : ∀ b ∈ baseMarks, ∀ cs, u ++ rest ≠ '0' :: b :: cs :=
      fun b hb cs hcs => hmark ⟨b, hb, cs, hcs⟩
    rw [wholeLength_of_no_mark hno] at h
    rw [wholeLength_of_no_mark, digitsLength_append h hn htail]
    intro b hb cs hcs
    match u with
    | [] =>
      have hpos := digitsLength_pos h
      simp at hn
      omega
    | [c] =>
      have hstop : ∀ c ∈ tail.head?, c ∉ baseMarks :=
        htail.head (by decide) (by decide) (by decide) (by decide)
      obtain ⟨-, rfl⟩ : _ ∧ tail = b :: cs := by simpa using hcs
      exact hstop b rfl hb
    | c :: d :: u =>
      obtain ⟨rfl, rfl, -⟩ : c = _ ∧ d = _ ∧ _ := by simpa using hcs
      exact hno d hb (u ++ rest) rfl

-- A whole number could be the end of a name.
theorem all_of_wholeLength {cs : List Char} {n : Nat} (h : wholeLength cs = some n) :
    ∀ c ∈ cs.take n, isIdentifierRest c = true := by
  by_cases hmark : ∃ b ∈ baseMarks, ∃ cs', cs = '0' :: b :: cs'
  · obtain ⟨b, hb, cs, rfl⟩ := hmark
    obtain ⟨base, hbase⟩ := exists_base b hb
    rw [hbase] at h
    obtain ⟨m, hm, rfl⟩ := Option.map_eq_some_iff.1 h
    have hmarks : ∀ b ∈ baseMarks, isIdentifierRest b = true := by decide
    have hzero : isIdentifierRest '0' = true := by decide
    simpa [hzero, hmarks b hb] using all_of_digitsLength hm
  · rw [wholeLength_of_no_mark fun b hb cs' hcs => hmark ⟨b, hb, cs', hcs⟩] at h
    exact all_of_digitsLength h

end Lifecycle.Literal
