import Lifecycle.Proofs.Token.Literals.Quoted
import Lifecycle.Proofs.Token.Literals.Whole

namespace Lifecycle.Literal

open Text Lexer

-- A suffix of characters that names may hold is read up to the end of the token.
theorem withSuffix_of_all {u tail : List Char} {n m : Nat} (hn : n ≤ u.length)
    (hu : ∀ c ∈ u, isIdentifierRest c = true) (htail : Ended tail)
    (h : withSuffix (u ++ tail) n = some m) : m = u.length := by
  obtain ⟨rfl, hended⟩ := withSuffix_eq_some_iff.1 h
  rw [List.drop_append_of_le_length hn] at hended ⊢
  cases hdrop : u.drop n with
  | nil =>
    rw [List.nil_append, identifierLength_of_ended htail]
    simpa using Nat.le_antisymm hn (List.drop_eq_nil_iff.1 hdrop)
  | cons c v =>
    rw [hdrop] at hended
    have hall : ∀ d ∈ c :: v, isIdentifierRest d = true :=
      fun d hd => hu d (List.mem_of_mem_drop (hdrop ▸ hd))
    have hlen : u.length = n + (c :: v).length := by
      rw [← hdrop, List.length_drop]
      omega
    by_cases hstart : isIdentifierStart c = true
    · have hid : isIdentifier (c :: v) = true := Bool.and_eq_true_iff.2
        ⟨hstart, List.all_eq_true.2 fun d hd => hall d (List.mem_cons_of_mem _ hd)⟩
      rw [identifierLength_append hid htail, hlen]
    · -- The suffix is empty, but the text goes on with a character of names.
      have hzero : identifierLength (c :: v ++ tail) = 0 := by simp [identifierLength, hstart]
      rw [hzero, Nat.add_zero, List.drop_append_of_le_length hn, hdrop] at hended
      exact absurd (hall c (by simp)) (by simp [hended c rfl])

-- A whole number in one text is no fraction in another.
theorem floatLength_append_eq_none {u rest tail : List Char} {n : Nat}
    (hfloat : (floatLength (u ++ rest)).bind (withSuffix (u ++ rest)) = none)
    (hwhole : wholeLength (u ++ rest) = some n)
    (hsuffix : withSuffix (u ++ rest) n = some u.length) (htail : Stops tail) :
    (floatLength (u ++ tail)).bind (withSuffix (u ++ tail)) = none := by
  have hall : ∀ c ∈ u, isIdentifierRest c = true := by
    have htake := all_of_wholeLength hwhole
    rw [List.take_append_of_le_length (le_of_withSuffix hsuffix)] at htake
    rw [← List.take_append_drop n u]
    exact List.forall_mem_append.2
      ⟨htake, all_of_identifierLength (identifierLength_of_withSuffix hsuffix)⟩
  have hpoint : '.' ∉ u := fun h => absurd (hall _ h) (by decide)
  rw [Option.eq_none_iff_forall_ne_some]
  intro m hm
  obtain ⟨k, hk, hsuffix'⟩ := Option.bind_eq_some_iff.1 hm
  suffices hle : k ≤ u.length ∧ floatLength (u ++ rest) = some k by
    obtain rfl := withSuffix_of_all hle.1 hall (.of_stops htail) hsuffix'
    simp [hle.2, withSuffix_append hsuffix' (ended_of_withSuffix hsuffix)] at hfloat
  cases u with
  | nil =>
    cases tail with
    | nil => cases hk
    | cons c tail => obtain rfl | rfl | rfl | rfl := htail c rfl <;> cases hk
  | cons c u =>
    rw [List.cons_append, floatLength_cons_eq_some_iff] at hk ⊢
    obtain ⟨hdigit, hparts⟩ := hk
    have hu : '.' ∉ u := fun h => hpoint (List.mem_cons_of_mem _ h)
    obtain @⟨k, j, point, hmantissa, hx, rfl⟩ | @⟨k, hmantissa, hx, rfl⟩ | @⟨k, hmantissa, rfl⟩ :=
      hparts
    · have hle := mantissa_le hmantissa htail
      rw [List.drop_append_of_le_length hle] at hx
      have hle' := exponent_le hx htail
      rw [List.length_drop] at hle'
      refine ⟨by rw [List.length_cons]; omega, hdigit, ?_⟩
      refine .exponent (mantissa_append hmantissa hle (.inl rfl)) ?_ rfl
      rw [List.drop_append_of_le_length hle]
      exact exponent_append hx (by rw [List.length_drop]; omega)
        (.inl ⟨rfl, ended_of_withSuffix hsuffix⟩)
    · cases mantissa_point hmantissa hu htail
    · cases mantissa_point hmantissa hu htail

-- A number starts with a digit.
theorem exists_digit_of_wholeLength {cs : List Char} {n : Nat} (h : wholeLength cs = some n) :
    ∃ c rest, cs = c :: rest ∧ c.isDigit = true := by
  by_cases hmark : ∃ b ∈ baseMarks, ∃ cs', cs = '0' :: b :: cs'
  · obtain ⟨b, -, cs, rfl⟩ := hmark
    exact ⟨'0', b :: cs, rfl, by decide⟩
  · rw [wholeLength_of_no_mark fun b hb cs' hcs => hmark ⟨b, hb, cs', hcs⟩] at h
    cases cs with
    | nil => simp [digitsLength] at h
    | cons c cs =>
      refine ⟨c, cs, rfl, ?_⟩
      by_contra hdigit
      rw [digitsLength, if_neg hdigit] at h
      split at h
      · simp at h
      · split at h
        · rename_i v hv
          simp [Nat.not_lt.2 (ten_le_of_hexValue? (by simpa using hdigit) hv)] at h
        · simp at h

theorem exists_digit_of_floatLength {cs : List Char} {n : Nat} (h : floatLength cs = some n) :
    ∃ c rest, cs = c :: rest ∧ c.isDigit = true := by
  cases cs with
  | nil => cases h
  | cons c cs => exact ⟨c, cs, rfl, (floatLength_cons_eq_some_iff.1 h).1⟩

-- The characters that announce quoted literals.
def announcers : List Char := ['\x22', '\x27', 'b', 'r', 'c']

theorem exists_announcer {cs : List Char} {n : Nat} (h : quotedLength cs = some n) :
    ∃ c rest, cs = c :: rest ∧ c ∈ announcers := by
  obtain ⟨rest, rfl | rfl⟩ | hmark := quotedLength_start h
  · exact ⟨_, rest, rfl, by decide⟩
  · exact ⟨_, rest, rfl, by decide⟩
  · obtain ⟨mark, hmem, hmark⟩ := List.any_eq_true.1 hmark
    have hheads : ∀ mark ∈ quoteMarks, ∃ d ∈ announcers, d ∈ mark.head? := by decide
    obtain ⟨d, hfirst, hd⟩ := hheads mark hmem
    obtain ⟨rest, rfl⟩ := List.isPrefixOf_iff_prefix.1 hmark
    cases mark with
    | nil => cases hd
    | cons e mark =>
      obtain rfl := Option.some.inj hd
      exact ⟨e, mark ++ rest, rfl, hfirst⟩

theorem quotedLength_of_isDigit {c : Char} (h : c.isDigit = true) (cs : List Char) :
    quotedLength (c :: cs) = none := by
  rw [Option.eq_none_iff_forall_ne_some]
  intro n hn
  obtain ⟨d, rest, hcs, hd⟩ := exists_announcer hn
  obtain ⟨rfl, -⟩ := List.cons.inj hcs
  exact of_isDigit (P := fun c => c ∉ announcers) (by decide) h hd

theorem length?_of_number {c : Char} (h : c.isDigit = true) (cs : List Char) :
    length? (c :: cs) =
      ((floatLength (c :: cs)).bind (withSuffix (c :: cs))).or
        ((wholeLength (c :: cs)).bind (withSuffix (c :: cs))) := by
  rw [length?, quotedLength_of_isDigit h]
  cases (floatLength (c :: cs)).bind (withSuffix (c :: cs)) <;> rfl

-- A literal is quoted, or a number.
theorem length?_eq_some_iff {cs : List Char} {n : Nat} :
    length? cs = some n ↔
      (∃ k, quotedLength cs = some k ∧ n = k + identifierLength (cs.drop k)) ∨
      ((∃ c rest, cs = c :: rest ∧ c.isDigit = true) ∧
        ((floatLength cs).bind (withSuffix cs) = some n ∨
          (floatLength cs).bind (withSuffix cs) = none ∧
            (wholeLength cs).bind (withSuffix cs) = some n)) := by
  constructor
  · intro h
    unfold length? at h
    split at h
    · rename_i k hquoted
      exact .inl ⟨k, hquoted, (Option.some.inj h).symm⟩
    · refine .inr ?_
      split at h
      · rename_i hfloat
        obtain ⟨k, hk, -⟩ := Option.bind_eq_some_iff.1 hfloat
        exact ⟨exists_digit_of_floatLength hk, .inl (hfloat.trans h)⟩
      · rename_i hfloat
        obtain ⟨k, hk, -⟩ := Option.bind_eq_some_iff.1 h
        exact ⟨exists_digit_of_wholeLength hk, .inr ⟨hfloat, h⟩⟩
  · rintro (⟨k, hquoted, rfl⟩ | ⟨⟨c, rest, rfl, hdigit⟩, hnumber⟩)
    · simp [length?, hquoted]
    · rw [length?_of_number hdigit]
      obtain h | ⟨hnone, h⟩ := hnumber
      · simp [h]
      · simp [hnone, h]

theorem wholeLength_pos {cs : List Char} {n : Nat} (h : wholeLength cs = some n) : 0 < n := by
  by_cases hmark : ∃ b ∈ baseMarks, ∃ cs', cs = '0' :: b :: cs'
  · obtain ⟨b, hb, cs, rfl⟩ := hmark
    obtain ⟨base, hbase⟩ := exists_base b hb
    obtain ⟨m, -, rfl⟩ := Option.map_eq_some_iff.1 (hbase cs ▸ h)
    omega
  · rw [wholeLength_of_no_mark fun b hb cs' hcs => hmark ⟨b, hb, cs', hcs⟩] at h
    exact digitsLength_pos h

-- What is read as a number holds a digit and lies inside its text.
theorem floatLength_bounds {cs : List Char} {n : Nat} (h : floatLength cs = some n) :
    0 < n ∧ n ≤ cs.length := by
  obtain ⟨c, cs, rfl, hdigit⟩ := exists_digit_of_floatLength h
  obtain ⟨-, hparts⟩ := floatLength_cons_eq_some_iff.1 h
  refine ⟨hparts.pos, ?_⟩
  have hmantissa : ∀ {k q e}, mantissa false cs = some (k, q, e) → k ≤ cs.length :=
    fun {k q e} hk => mantissa_le ((List.append_nil cs).symm ▸ hk) stops_nil
  rw [List.length_cons]
  obtain @⟨k, j, point, hk, hx, rfl⟩ | @⟨k, hk, -, rfl⟩ | @⟨k, hk, rfl⟩ := hparts
  · have hle := hmantissa hk
    have hle' := exponent_le ((List.append_nil (cs.drop k)).symm ▸ hx) stops_nil
    rw [List.length_drop] at hle'
    omega
  · have hle := hmantissa hk
    omega
  · have hle := hmantissa hk
    omega

theorem wholeLength_le {cs : List Char} {n : Nat} (h : wholeLength cs = some n) :
    n ≤ cs.length := by
  by_cases hmark : ∃ b ∈ baseMarks, ∃ cs', cs = '0' :: b :: cs'
  · obtain ⟨b, hb, cs, rfl⟩ := hmark
    obtain ⟨base, hbase⟩ := exists_base b hb
    obtain ⟨m, hm, rfl⟩ := Option.map_eq_some_iff.1 (hbase cs ▸ h)
    simpa using digitsLength_le hm
  · rw [wholeLength_of_no_mark fun b hb cs' hcs => hmark ⟨b, hb, cs', hcs⟩] at h
    exact digitsLength_le h

theorem identifierLength_le (cs : List Char) : identifierLength cs ≤ cs.length := by
  cases cs with
  | nil => simp [identifierLength]
  | cons c cs =>
    by_cases hstart : isIdentifierStart c = true
    · simpa [identifierLength, hstart] using (List.takeWhile_prefix _).length_le
    · simp [identifierLength, hstart]

theorem withSuffix_bounds {cs : List Char} {n m : Nat} (h : withSuffix cs n = some m)
    (hn : n ≤ cs.length) : n ≤ m ∧ m ≤ cs.length := by
  obtain ⟨rfl, -⟩ := withSuffix_eq_some_iff.1 h
  have hle := identifierLength_le (cs.drop n)
  rw [List.length_drop] at hle
  omega

-- A literal is not empty and lies inside its text.
theorem length?_bounds {cs : List Char} {n : Nat} (h : length? cs = some n) :
    0 < n ∧ n ≤ cs.length := by
  obtain ⟨k, hk, rfl⟩ | ⟨-, hfloat | ⟨-, hwhole⟩⟩ := length?_eq_some_iff.1 h
  · have htwo := two_le_quotedLength hk
    have hle := quotedLength_le hk
    have hle' := identifierLength_le (cs.drop k)
    rw [List.length_drop] at hle'
    omega
  · obtain ⟨k, hk, hsuffix⟩ := Option.bind_eq_some_iff.1 hfloat
    have hbounds := floatLength_bounds hk
    have hbounds' := withSuffix_bounds hsuffix hbounds.2
    omega
  · obtain ⟨k, hk, hsuffix⟩ := Option.bind_eq_some_iff.1 hwhole
    have hpos := wholeLength_pos hk
    have hbounds := withSuffix_bounds hsuffix (wholeLength_le hk)
    omega

-- What is read as a literal in some text is read as this literal wherever a token can end after it.
theorem length?_append {u rest tail : List Char} (h : length? (u ++ rest) = some u.length)
    (htail : Stops tail) : length? (u ++ tail) = some u.length := by
  obtain ⟨k, hquoted, hlen⟩ | ⟨hdigit, hnumber⟩ := length?_eq_some_iff.1 h
  · have hk : k ≤ u.length := by omega
    rw [List.drop_append_of_le_length hk] at hlen
    have hsuffix : identifierLength (u.drop k ++ rest) = (u.drop k).length := by
      rw [List.length_drop]
      omega
    refine length?_eq_some_iff.2 (.inl ⟨k, quotedLength_append hquoted hk tail, ?_⟩)
    rw [List.drop_append_of_le_length hk, identifierLength_append_of_eq hsuffix (.of_stops htail),
      List.length_drop]
    omega
  · have hstart : ∃ c more, u ++ tail = c :: more ∧ c.isDigit = true := by
      cases u with
      | nil => exact absurd (length?_bounds h).1 (by simp)
      | cons c u =>
        obtain ⟨d, more, hcs, hd⟩ := hdigit
        obtain ⟨rfl, -⟩ := List.cons.inj hcs
        exact ⟨c, u ++ tail, rfl, hd⟩
    refine length?_eq_some_iff.2 (.inr ⟨hstart, ?_⟩)
    obtain hfloat | ⟨hnone, hwhole⟩ := hnumber
    · obtain ⟨k, hk, hsuffix⟩ := Option.bind_eq_some_iff.1 hfloat
      refine .inl (Option.bind_eq_some_iff.2 ⟨k, floatLength_append hsuffix hk htail, ?_⟩)
      exact withSuffix_append hsuffix (.of_stops htail)
    · obtain ⟨k, hk, hsuffix⟩ := Option.bind_eq_some_iff.1 hwhole
      refine .inr ⟨floatLength_append_eq_none hnone hk hsuffix htail, ?_⟩
      refine Option.bind_eq_some_iff.2 ⟨k, wholeLength_append hk (le_of_withSuffix hsuffix) htail, ?_⟩
      exact withSuffix_append hsuffix (.of_stops htail)

-- A literal starts with no character that has another meaning between tokens.
theorem of_length? {P : Char → Prop} {cs : List Char} {n : Nat} (h : length? cs = some n)
    (hdigit : ∀ m < 58, 48 ≤ m → P (Char.ofNat m)) (hannounce : ∀ c ∈ announcers, P c) :
    ∃ c rest, cs = c :: rest ∧ P c := by
  obtain ⟨k, hk, -⟩ | ⟨⟨c, rest, rfl, hc⟩, -⟩ := length?_eq_some_iff.1 h
  · obtain ⟨c, rest, rfl, hc⟩ := exists_announcer hk
    exact ⟨c, rest, rfl, hannounce c hc⟩
  · exact ⟨c, rest, rfl, of_isDigit hdigit hc⟩

theorem readsAs_literal {cs rest : List Char} (h : length? (cs ++ rest) = some cs.length) :
    ReadsAs cs fun pos => .literal (String.ofList cs) pos := by
  intro tail pos htail
  have hread := length?_append h htail
  obtain ⟨c, more, hcs, hslash, hblank, hopening, hclosing⟩ := of_length? hread
    (P := fun c => c ≠ '/' ∧ isBlank c = false ∧ Delimiter.ofOpening? c = none ∧
      Delimiter.ofClosing? c = none) (by decide) (by decide)
  cases cs with
  | nil => exact absurd (length?_bounds h).1 (by simp)
  | cons d cs =>
    obtain ⟨rfl, rfl⟩ := List.cons.inj hcs
    refine ⟨d, cs, rfl, ?_⟩
    rw [item?_eq_token? hslash hblank hopening hclosing, token?]
    rw [List.cons_append] at hread
    simp [hread]

-- The mark of a literal that could not be written is read as one.
theorem readsAs_errorMark :
    ReadsAs errorMark fun pos => .literal (String.ofList errorMark) pos := by
  intro tail pos htail
  exact ⟨_, _, rfl, rfl⟩

end Lifecycle.Literal
