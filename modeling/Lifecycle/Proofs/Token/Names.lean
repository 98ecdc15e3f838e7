import Lifecycle.Token.Lexer
import Mathlib.Data.List.TakeWhile

namespace Lifecycle

open Text Lexer

-- What is said of the members of a list is decided by going through them, also where the type is
-- finite.
instance (priority := high) decidableForallMem {α : Type} (P : α → Prop) [DecidablePred P]
    (l : List α) : Decidable (∀ a ∈ l, P a) :=
  List.decidableBAll P l

instance (priority := high) decidableExistsMem {α : Type} (P : α → Prop) [DecidablePred P]
    (l : List α) : Decidable (∃ a ∈ l, P a) :=
  List.decidableBEx P l

-- Whether a token can end before a text.
def Stops (tail : List Char) : Prop :=
  ∀ c ∈ tail.head?, c = ' ' ∨ c = ')' ∨ c = ']' ∨ c = '\n'

theorem stops_nil : Stops [] := by
  simp [Stops]

theorem stops_cons {c : Char} (tail : List Char) (h : c = ' ' ∨ c = ')' ∨ c = ']' ∨ c = '\n') :
    Stops (c :: tail) := by
  simpa [Stops] using h

-- What is said of the four characters that end a token is said of the head of such a text.
theorem Stops.head {tail : List Char} (h : Stops tail) {P : Char → Prop} (hspace : P ' ')
    (hparen : P ')') (hbracket : P ']') (hline : P '\n') : ∀ c ∈ tail.head?, P c := by
  intro c hc
  obtain rfl | rfl | rfl | rfl := h c hc
  · exact hspace
  · exact hparen
  · exact hbracket
  · exact hline

theorem Stops.not_isIdentifierRest {tail : List Char} (h : Stops tail) :
    ∀ c ∈ tail.head?, isIdentifierRest c = false :=
  h.head (by decide) (by decide) (by decide) (by decide)

theorem takeWhile_append_of_all {p : Char → Bool} {cs tail : List Char} (hcs : ∀ c ∈ cs, p c = true)
    (htail : ∀ c ∈ tail.head?, p c = false) : (cs ++ tail).takeWhile p = cs := by
  rw [List.takeWhile_append_of_pos hcs]
  cases tail with
  | nil => simp
  | cons c tail => simp [htail c rfl]

theorem identifierLength_append {cs tail : List Char} (hcs : isIdentifier cs = true)
    (htail : ∀ c ∈ tail.head?, isIdentifierRest c = false) :
    identifierLength (cs ++ tail) = cs.length := by
  cases cs with
  | nil => simp [isIdentifier] at hcs
  | cons c cs =>
    obtain ⟨hstart, hrest⟩ := Bool.and_eq_true_iff.1 hcs
    simp [identifierLength, hstart, takeWhile_append_of_all (List.all_eq_true.1 hrest) htail]

-- The characters that an identifier takes are one.
theorem isIdentifier_take {cs : List Char} (h : identifierLength cs ≠ 0) :
    isIdentifier (cs.take (identifierLength cs)) = true := by
  cases cs with
  | nil => simp [identifierLength] at h
  | cons c cs =>
    by_cases hstart : isIdentifierStart c = true
    · have htake : cs.take (cs.takeWhile isIdentifierRest).length = cs.takeWhile isIdentifierRest :=
        (List.prefix_iff_eq_take.1 (List.takeWhile_prefix _)).symm
      simp only [identifierLength, hstart, if_true, List.take_succ_cons, htake, isIdentifier,
        Bool.true_and, List.all_eq_true]
      exact fun c hc => List.mem_takeWhile_imp hc
    · simp [identifierLength, hstart] at h

theorem all_isIdentifierRest {cs : List Char} (h : isIdentifier cs = true) :
    ∀ c ∈ cs, isIdentifierRest c = true := by
  cases cs with
  | nil => simp
  | cons c cs =>
    obtain ⟨hstart, hrest⟩ := Bool.and_eq_true_iff.1 h
    exact List.forall_mem_cons.2 ⟨isIdentifierRest_of_start hstart, List.all_eq_true.1 hrest⟩

-- Whether a text is an identifier or keyword, raw or not.
def IsName (cs : List Char) : Prop :=
  isIdentifier cs = true ∨ ∃ id, cs = 'r' :: '#' :: id ∧ isIdentifier id = true ∧ id ∉ neverRaw

theorem identifierStart_of_isIdentifier {c : Char} {cs : List Char}
    (h : isIdentifier (c :: cs) = true) : isIdentifierStart c = true :=
  (Bool.and_eq_true_iff.1 h).1

theorem IsName.exists_start {cs : List Char} (h : IsName cs) :
    ∃ c rest, cs = c :: rest ∧ isIdentifierStart c = true := by
  obtain h | ⟨id, rfl, -, -⟩ := h
  · cases cs with
    | nil => simp [isIdentifier] at h
    | cons c rest => exact ⟨c, rest, rfl, identifierStart_of_isIdentifier h⟩
  · exact ⟨'r', '#' :: id, rfl, by decide⟩

theorem nameLength?_raw (cs : List Char) :
    nameLength? ('r' :: '#' :: cs) =
      if identifierLength cs = 0 ∨ cs.take (identifierLength cs) ∈ neverRaw then none
      else some (identifierLength cs + 2) :=
  rfl

theorem nameLength?_of_not_raw {cs : List Char} (h : ∀ rest, cs ≠ 'r' :: '#' :: rest) :
    nameLength? cs = if identifierLength cs = 0 then none else some (identifierLength cs) := by
  unfold nameLength?
  split
  · exact absurd rfl (h _)
  · rfl

-- An identifier is not read as the marker of a raw one.
theorem append_ne_raw {cs tail : List Char} (h : isIdentifier cs = true) (htail : Stops tail)
    (rest : List Char) : cs ++ tail ≠ 'r' :: '#' :: rest := by
  intro heq
  match cs, h, heq with
  | [_], _, heq =>
    have hhash : ∀ c ∈ tail.head?, c ≠ '#' :=
      htail.head (by decide) (by decide) (by decide) (by decide)
    obtain ⟨-, rfl⟩ : _ ∧ tail = '#' :: rest := by simpa using heq
    exact hhash '#' rfl rfl
  | _ :: d :: cs, h, heq =>
    obtain ⟨-, rfl, -⟩ : _ ∧ d = '#' ∧ _ := by simpa using heq
    simp [isIdentifier, isIdentifierRest] at h

theorem ne_nil_of_isIdentifier {cs : List Char} (h : isIdentifier cs = true) : cs ≠ [] := by
  rintro rfl
  simp [isIdentifier] at h

theorem nameLength?_append {cs tail : List Char} (h : IsName cs) (htail : Stops tail) :
    nameLength? (cs ++ tail) = some cs.length := by
  have hrest := htail.not_isIdentifierRest
  obtain h | ⟨id, rfl, hid, hraw⟩ := h
  · rw [nameLength?_of_not_raw (append_ne_raw h htail), identifierLength_append h hrest,
      if_neg (mt List.length_eq_zero_iff.1 (ne_nil_of_isIdentifier h))]
  · have hne : id ≠ [] := ne_nil_of_isIdentifier hid
    simp [nameLength?_raw, identifierLength_append hid hrest, hne, hraw]

-- What is measured as a name is one.
theorem isName_take {cs : List Char} {n : Nat} (h : nameLength? cs = some n) : IsName (cs.take n) := by
  by_cases hraw : ∃ rest, cs = 'r' :: '#' :: rest
  · obtain ⟨id, rfl⟩ := hraw
    rw [nameLength?_raw] at h
    split at h
    · cases h
    · rename_i hid
      obtain ⟨hne, hnever⟩ := not_or.1 hid
      obtain rfl := Option.some.inj h
      exact .inr ⟨id.take (identifierLength id), rfl, isIdentifier_take hne, hnever⟩
  · rw [nameLength?_of_not_raw fun rest hcs => hraw ⟨rest, hcs⟩] at h
    split at h
    · cases h
    · rename_i hne
      obtain rfl := Option.some.inj h
      exact .inl (isIdentifier_take hne)

theorem identifierStart_ne {c d : Char} (h : isIdentifierStart c = true)
    (hd : isIdentifierStart d = false) : c ≠ d := by
  rintro rfl
  simp [hd] at h

-- A mark that no identifier holds and that no token can end in is no beginning of an identifier.
theorem not_prefix_of_isIdentifier {mark cs tail : List Char} (h : isIdentifier cs = true)
    (htail : Stops tail) (hmark : ∃ c ∈ mark, isIdentifierRest c = false)
    (hstop : ∀ c ∈ [' ', ')', ']', '\n'], c ∉ mark) : ¬ mark <+: cs ++ tail := by
  intro hprefix
  obtain ⟨q, hq, hqrest⟩ := hmark
  have hall := all_isIdentifierRest h
  obtain hshort | ⟨more, rfl⟩ :=
    List.prefix_or_prefix_of_prefix hprefix (List.prefix_append cs tail)
  · simp [hall q (hshort.subset hq)] at hqrest
  · obtain ⟨rest, hrest⟩ := hprefix
    obtain rfl : more ++ rest = tail := by simpa using hrest
    cases more with
    | nil => simp [hall q (by simpa using hq)] at hqrest
    | cons c more =>
      refine hstop c ?_ (by simp)
      simpa using htail c rfl

-- No name starts like a quoted literal.
theorem not_startsWith_quoteMarks {cs tail : List Char} (h : IsName cs) (htail : Stops tail) :
    quoteMarks.any (·.isPrefixOf (cs ++ tail)) = false := by
  rw [List.any_eq_false]
  intro mark hmark
  rw [List.isPrefixOf_iff_prefix]
  obtain h | ⟨id, rfl, hid, -⟩ := h
  · have hmarks : ∀ mark ∈ quoteMarks, (∃ c ∈ mark, isIdentifierRest c = false) ∧
        ∀ c ∈ [' ', ')', ']', '\n'], c ∉ mark := by decide
    exact not_prefix_of_isIdentifier h htail (hmarks mark hmark).1 (hmarks mark hmark).2
  · cases id with
    | nil => simp [isIdentifier] at hid
    | cons c id =>
      have hstart := identifierStart_of_isIdentifier hid
      have hquote : c ≠ '\x22' := identifierStart_ne hstart (by decide)
      have hhash : c ≠ '#' := identifierStart_ne hstart (by decide)
      revert mark
      simp [quoteMarks, List.cons_prefix_cons, hquote.symm, hhash.symm]

-- A raw string starts with a quote, or with a hash that a quote or hash follows.
theorem rawLength_start {f : Literal.Flavour} {cs : List Char} {n : Nat}
    (h : Literal.rawLength f cs = some n) :
    ∃ rest, cs = '\x22' :: rest ∨ cs = '#' :: '\x22' :: rest ∨ cs = '#' :: '#' :: rest := by
  by_contra hnot
  simp only [not_exists, not_or] at hnot
  unfold Literal.rawLength at h
  match cs with
  | [] => simp at h
  | c :: cs =>
    have hquote : c ≠ '\x22' := fun hc => (hnot cs).1 (by rw [hc])
    by_cases hhash : c = '#'
    · subst c
      cases cs with
      | nil => simp at h
      | cons d cs =>
        have hd : d ≠ '\x22' ∧ d ≠ '#' :=
          ⟨fun hd => (hnot cs).2.1 (by rw [hd]), fun hd => (hnot cs).2.2 (by rw [hd])⟩
        simp [hd.1, hd.2] at h
    · simp [hhash, hquote] at h

-- A quoted literal starts with a quote or announces one.
theorem quotedLength_start {cs : List Char} {n : Nat} (h : Literal.quotedLength cs = some n) :
    (∃ rest, cs = '\x22' :: rest ∨ cs = '\x27' :: rest) ∨
      quoteMarks.any (·.isPrefixOf cs) = true := by
  unfold Literal.quotedLength at h
  split at h
  case h_1 => exact .inl ⟨_, .inl rfl⟩
  case h_2 | h_4 | h_7 =>
    obtain ⟨m, hm, -⟩ := Option.map_eq_some_iff.1 h
    obtain ⟨rest, rfl | rfl | rfl⟩ := rawLength_start hm <;> exact .inr (by simp [quoteMarks])
  case h_3 | h_5 | h_6 => exact .inr (by simp [quoteMarks])
  case h_8 => exact .inl ⟨_, .inr rfl⟩
  case h_9 => cases h

theorem quotedLength_name {cs tail : List Char} (h : IsName cs) (htail : Stops tail) :
    Literal.quotedLength (cs ++ tail) = none := by
  rw [Option.eq_none_iff_forall_ne_some]
  intro n hn
  obtain ⟨rest, hrest⟩ | hmark := quotedLength_start hn
  · obtain ⟨c, cs, rfl, hstart⟩ := h.exists_start
    have hquote : c ≠ '\x22' := identifierStart_ne hstart (by decide)
    have hsingle : c ≠ '\x27' := identifierStart_ne hstart (by decide)
    obtain hrest | hrest := hrest
    · exact hquote (List.cons.inj hrest).1
    · exact hsingle (List.cons.inj hrest).1
  · simp [not_startsWith_quoteMarks h htail] at hmark

-- What is said of the ten digits is said of every digit.
theorem of_isDigit {P : Char → Prop} (h : ∀ n < 58, 48 ≤ n → P (Char.ofNat n)) {c : Char}
    (hc : c.isDigit = true) : P c := by
  have hrange : 48 ≤ c.toNat ∧ c.toNat < 58 := by
    simp only [Char.isDigit, Bool.and_eq_true, decide_eq_true_eq] at hc
    exact ⟨hc.1, Nat.lt_succ_of_le hc.2⟩
  exact Char.ofNat_toNat c ▸ h c.toNat hrange.2 hrange.1

theorem isDigit_of_identifierStart {c : Char} (h : isIdentifierStart c = true) :
    c.isDigit = false := by
  by_contra hdigit
  have hstart := of_isDigit (P := fun c => isIdentifierStart c = false) (by decide)
    (Bool.not_eq_false _ ▸ hdigit)
  simp [h] at hstart

-- What starts like an identifier is no number.
theorem floatLength_of_identifierStart {c : Char} (h : isIdentifierStart c = true)
    (cs : List Char) : Literal.floatLength (c :: cs) = none := by
  simp [Literal.floatLength, isDigit_of_identifierStart h]

theorem ten_le_of_hexValue? {c : Char} {v : Nat} (hc : c.isDigit = false)
    (h : Literal.hexValue? c = some v) : 10 ≤ v := by
  have hnot : ¬ ('0' ≤ c ∧ c ≤ '9') := by
    simpa [Char.isDigit, Char.le_def] using hc
  rw [Literal.hexValue?, if_neg hnot] at h
  split at h
  · obtain rfl := Option.some.inj h
    omega
  · split at h
    · obtain rfl := Option.some.inj h
      omega
    · cases h

theorem wholeLength_of_identifierStart {c : Char} (h : isIdentifierStart c = true)
    (cs : List Char) : Literal.wholeLength (c :: cs) = none := by
  have hdigit := isDigit_of_identifierStart h
  have hzero : c ≠ '0' := identifierStart_ne h (by decide)
  have hwhole : Literal.wholeLength (c :: cs) = Literal.digitsLength 10 true (c :: cs) := by
    unfold Literal.wholeLength
    split
    · rename_i heq
      exact absurd (List.cons.inj heq).1 hzero
    · rename_i heq
      exact absurd (List.cons.inj heq).1 hzero
    · rename_i heq
      exact absurd (List.cons.inj heq).1 hzero
    · rfl
  rw [hwhole, Literal.digitsLength, if_neg (by simp [hdigit])]
  by_cases hline : c = '_'
  · simp [hline]
  · rw [if_neg hline]
    cases hv : Literal.hexValue? c with
    | none => rfl
    | some v => simp [Nat.not_lt.2 (ten_le_of_hexValue? hdigit hv)]

theorem literalLength?_name {cs tail : List Char} (h : IsName cs) (htail : Stops tail) :
    Literal.length? (cs ++ tail) = none := by
  obtain ⟨c, rest, rfl, hstart⟩ := h.exists_start
  rw [Literal.length?, quotedLength_name h htail, List.cons_append,
    floatLength_of_identifierStart hstart, wholeLength_of_identifierStart hstart]
  rfl

theorem identLength?_append {cs tail : List Char} (h : IsName cs) (htail : Stops tail) :
    identLength? (cs ++ tail) = some cs.length := by
  rw [identLength?, not_startsWith_quoteMarks h htail, if_neg (by simp), nameLength?_append h htail]

-- No identifier starts with a blank.
theorem isBlank_of_identifierStart {c : Char} (h : isIdentifierStart c = true) :
    isBlank c = false := by
  by_contra hblank
  have hmem : c.toNat ∈ [9, 10, 11, 12, 13, 0x20, 0x85, 0xa0, 0x1680, 0x2000, 0x2001, 0x2002, 0x2003,
      0x2004, 0x2005, 0x2006, 0x2007, 0x2008, 0x2009, 0x200a, 0x2028, 0x2029, 0x202f, 0x205f, 0x3000,
      0x200e, 0x200f] := by
    simp only [Bool.not_eq_false, isBlank, isWhiteSpace, Bool.or_eq_true, Bool.and_eq_true,
      decide_eq_true_eq, beq_iff_eq, or_assoc] at hblank
    simp only [List.mem_cons, List.not_mem_nil, or_false]
    obtain h | h | h | h | h | h | h | h | h | h | h | h | h := hblank <;> omega
  have hall : ∀ n ∈ [9, 10, 11, 12, 13, 0x20, 0x85, 0xa0, 0x1680, 0x2000, 0x2001, 0x2002, 0x2003,
      0x2004, 0x2005, 0x2006, 0x2007, 0x2008, 0x2009, 0x200a, 0x2028, 0x2029, 0x202f, 0x205f, 0x3000,
      0x200e, 0x200f], isIdentifierStart (Char.ofNat n) = false := by decide +kernel
  have hc := hall c.toNat hmem
  simp [Char.ofNat_toNat, h] at hc

-- A text that is read as one token in front of everything that a token can end before.
def ReadsAs (cs : List Char) (leaf : Position → Tree) : Prop :=
  ∀ tail pos, Stops tail → ∃ c rest, cs = c :: rest ∧
    item? pos c (rest ++ tail) = some (rest.length, [.leaf (leaf pos)])

-- A character that is no slash, no blank and no bracket starts a token.
theorem item?_eq_token? {c : Char} (hslash : c ≠ '/') (hblank : isBlank c = false)
    (hopening : Delimiter.ofOpening? c = none) (hclosing : Delimiter.ofClosing? c = none)
    (pos : Position) (cs : List Char) :
    item? pos c cs = (token? pos c cs).map fun (n, tree) => (n, [.leaf tree]) := by
  have hlength : blankLength (c :: cs) = none := by
    unfold blankLength
    split
    · rename_i heq
      exact absurd (List.cons.inj heq).1 hslash
    · rename_i heq
      exact absurd (List.cons.inj heq).1 hslash
    · rename_i heq
      obtain ⟨rfl, -⟩ := List.cons.inj heq
      simp [hblank]
    · rfl
  have hdoc : doc? (c :: cs) = none := by
    unfold doc?
    split
    · rename_i heq
      exact absurd (List.cons.inj heq).1 hslash
    · rename_i heq
      exact absurd (List.cons.inj heq).1 hslash
    · rfl
  have hmark : errorMark.isPrefixOf (c :: cs) = false := by
    have hparen : '(' ≠ c := by
      rintro rfl
      cases hopening
    simp [errorMark, List.isPrefixOf, hparen]
  simp [item?, hlength, hdoc, hmark, hopening, hclosing]

theorem item?_of_identifierStart {c : Char} (h : isIdentifierStart c = true) (pos : Position)
    (cs : List Char) :
    item? pos c cs = (token? pos c cs).map fun (n, tree) => (n, [.leaf tree]) := by
  have hne : ∀ d ∈ ['/', '(', '[', '\x7b', ')', ']', '\x7d'], c ≠ d := fun d hd =>
    identifierStart_ne h (by revert d; decide)
  simp only [List.forall_mem_cons] at hne
  obtain ⟨hslash, hp, hb, hc, hp', hb', hc', -⟩ := hne
  exact item?_eq_token? hslash (isBlank_of_identifierStart h)
    (by simp [Delimiter.ofOpening?, hp, hb, hc]) (by simp [Delimiter.ofClosing?, hp', hb', hc']) _ _

theorem startsOperator_of_identifierStart {c : Char} (h : isIdentifierStart c = true)
    (cs : List Char) : startsOperator (c :: cs) = false := by
  have hslash : c ≠ '/' := identifierStart_ne h (by decide)
  have hall : ∀ d ∈ operatorChars, isIdentifierStart d = false := by decide
  unfold startsOperator
  split
  · rename_i heq
    exact absurd (List.cons.inj heq).1 hslash
  · rename_i heq
    exact absurd (List.cons.inj heq).1 hslash
  · rename_i heq
    obtain ⟨rfl, -⟩ := List.cons.inj heq
    simp only [List.contains_eq_mem, decide_eq_false_iff_not]
    exact fun hmem => by simp [hall c hmem] at h
  · rfl

theorem readsAs_name {cs : List Char} (h : IsName cs) :
    ReadsAs cs fun pos => .ident { text := String.ofList cs, pos } := by
  intro tail pos htail
  obtain ⟨c, rest, rfl, hstart⟩ := h.exists_start
  have hliteral := literalLength?_name h htail
  have hident := identLength?_append h htail
  rw [List.cons_append] at hliteral hident
  have hoperator := startsOperator_of_identifierStart hstart (rest ++ tail)
  have hquote : c ≠ '\x27' := identifierStart_ne hstart (by decide)
  refine ⟨c, rest, rfl, ?_⟩
  rw [item?_of_identifierStart hstart, token?, hliteral]
  simp [hquote, hoperator, hident]

theorem startsLifetime_append {cs tail : List Char} (h : IsName cs) (htail : Stops tail) :
    startsLifetime (cs ++ tail) = true := by
  have hquote : ∀ c ∈ tail.head?, c ≠ '\x27' :=
    htail.head (by decide) (by decide) (by decide) (by decide)
  have hhash : ∀ c ∈ tail.head?, c ≠ '#' :=
    htail.head (by decide) (by decide) (by decide) (by decide)
  simp only [startsLifetime, nameLength?_append h htail, List.drop_left]
  split
  · exact absurd rfl (hquote _ rfl)
  · exact absurd rfl (hhash _ rfl)
  · rfl

theorem IsName.ne_quote {cs : List Char} (h : IsName cs) : ∀ c ∈ cs, c ≠ '\x27' := by
  have hid : ∀ {id : List Char}, isIdentifier id = true → ∀ c ∈ id, c ≠ '\x27' := by
    rintro id hid c hc rfl
    have hrest : isIdentifierRest '\x27' = false := by decide
    simp [all_isIdentifierRest hid _ hc] at hrest
  obtain h | ⟨id, rfl, h, -⟩ := h
  · exact hid h
  · simpa using hid h

-- A name after an apostrophe is no character.
theorem literalLength?_lifetime {cs tail : List Char} (h : IsName cs) (htail : Stops tail) :
    Literal.length? ('\x27' :: (cs ++ tail)) = none := by
  obtain ⟨c, rest, rfl, hstart⟩ := h.exists_start
  have hslash : c ≠ '\\' := identifierStart_ne hstart (by decide)
  have hnext : ∀ d ∈ (rest ++ tail).head?, d ≠ '\x27' := by
    intro d hd
    cases rest with
    | nil =>
      exact htail.head (P := (· ≠ '\x27')) (by decide) (by decide) (by decide) (by decide) d hd
    | cons e rest =>
      obtain rfl : e = d := by simpa using hd
      exact h.ne_quote e (by simp)
  have hscan : Literal.scan (Literal.Single.step .text) .close (rest ++ tail) = none := by
    cases hrest : rest ++ tail with
    | nil => rfl
    | cons d more => simp [Literal.scan, Literal.Single.step, hnext d (by simp [hrest])]
  have hquoted : Literal.quotedLength ('\x27' :: c :: (rest ++ tail)) = none := by
    simp [Literal.quotedLength, Literal.scan, Literal.Single.step, hslash, Literal.Flavour.allows,
      hscan]
  simp [Literal.length?, List.cons_append, hquoted, Literal.floatLength, Literal.wholeLength, Literal.digitsLength,
    Literal.hexValue?]

theorem readsAs_lifetime {cs : List Char} (h : IsName cs) :
    ReadsAs ('\x27' :: cs) fun pos => .lifetime (String.ofList cs) pos := by
  intro tail pos htail
  refine ⟨'\x27', cs, rfl, ?_⟩
  rw [item?_eq_token? (by decide) (by decide) (by decide) (by decide), token?,
    literalLength?_lifetime h htail]
  simp [lifetime?, startsLifetime_append h htail, literalLength?_name h htail,
    identLength?_append h htail]

end Lifecycle
