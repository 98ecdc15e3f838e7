import Lifecycle.Proofs.Token.Names

namespace Lifecycle.Literal

open Text Lexer

-- Whether the characters of names end before a text.
def Ended (tail : List Char) : Prop :=
  ∀ c ∈ tail.head?, isIdentifierRest c = false

theorem Ended.of_stops {tail : List Char} (h : Stops tail) : Ended tail :=
  h.not_isIdentifierRest

theorem isIdentifierRest_of_isDigit {c : Char} (h : c.isDigit = true) :
    isIdentifierRest c = true :=
  of_isDigit (P := fun c => isIdentifierRest c = true) (by decide) h

-- What a mantissa does with its next character.
inductive MantissaStep (p : Bool) (c : Char) : Prop where
  | stop (h : ∀ cs, mantissa p (c :: cs) = some (0, p, false))
  | mark (hc : isIdentifierStart c = true) (h : ∀ cs, mantissa p (c :: cs) = some (1, p, true))
  | digit (h : ∀ cs, mantissa p (c :: cs) = (mantissa p cs).map fun (n, r) => (n + 1, r))
  | point (hc : c = '.') (h : ∀ cs, mantissa p (c :: cs) =
      if cs.head?.any fun d => d == '.' || isIdentifierStart d then none
      else (mantissa true cs).map fun (n, r) => (n + 1, r))

theorem mantissaStep (p : Bool) (c : Char) : MantissaStep p c := by
  by_cases hdigit : (c.isDigit || c == '_') = true
  · exact .digit fun cs => by rw [mantissa, if_pos hdigit]
  by_cases hpoint : c = '.'
  · subst c
    cases p with
    | true => exact .stop fun cs => rfl
    | false => exact .point rfl fun cs => rfl
  by_cases hmark : c = 'e' ∨ c = 'E'
  · refine .mark (by obtain rfl | rfl := hmark <;> decide) fun cs => ?_
    rw [mantissa, if_neg hdigit, if_neg hpoint, if_pos hmark]
  · exact .stop fun cs => by rw [mantissa, if_neg hdigit, if_neg hpoint, if_neg hmark]

theorem map_succ_eq_some_iff {α : Type} {result : Option (Nat × α)} {n : Nat} {a : α} :
    result.map (fun (n, r) => (n + 1, r)) = some (n, a) ↔ ∃ m, n = m + 1 ∧ result = some (m, a) := by
  rw [Option.map_eq_some_iff]
  constructor
  · rintro ⟨⟨m, r⟩, hm, heq⟩
    obtain ⟨rfl, rfl⟩ := Prod.mk.inj heq
    exact ⟨m, rfl, hm⟩
  · rintro ⟨m, rfl, hm⟩
    exact ⟨(m, a), hm, rfl⟩

theorem mantissa_zero {p q e : Bool} {cs : List Char} (h : mantissa p cs = some (0, q, e)) :
    q = p ∧ e = false := by
  cases cs with
  | nil => simpa [mantissa, eq_comm] using h
  | cons c cs =>
    obtain hs | ⟨-, hs⟩ | hs | ⟨-, hs⟩ := mantissaStep p c
    · simpa [hs, eq_comm] using h
    · simp [hs] at h
    · simp [hs] at h
    · rw [hs] at h
      split at h <;> simp at h

theorem mantissa_of_stops {tail : List Char} (h : Stops tail) (p : Bool) :
    mantissa p tail = some (0, p, false) := by
  cases tail with
  | nil => rfl
  | cons c tail => obtain rfl | rfl | rfl | rfl := h c rfl <;> simp [mantissa]

theorem mantissa_append {p q e : Bool} {u rest tail : List Char} {n : Nat}
    (h : mantissa p (u ++ rest) = some (n, q, e)) (hn : n ≤ u.length) (htail : e = true ∨ Stops tail) :
    mantissa p (u ++ tail) = some (n, q, e) := by
  induction u generalizing p n with
  | nil =>
    obtain rfl : n = 0 := by simpa using hn
    obtain ⟨rfl, rfl⟩ := mantissa_zero h
    exact mantissa_of_stops (htail.resolve_left (by simp)) q
  | cons c u ih =>
    rw [List.cons_append] at h ⊢
    obtain hs | ⟨-, hs⟩ | hs | ⟨-, hs⟩ := mantissaStep p c
    · rwa [hs] at h ⊢
    · rwa [hs] at h ⊢
    · rw [hs, map_succ_eq_some_iff] at h ⊢
      obtain ⟨m, rfl, hm⟩ := h
      exact ⟨m, rfl, ih hm (by simpa using hn)⟩
    · rw [hs] at h ⊢
      split at h
      · cases h
      rename_i hhead
      obtain ⟨m, rfl, hm⟩ := map_succ_eq_some_iff.1 h
      have hm' : m ≤ u.length := by simpa using hn
      have hnext : ¬ ((u ++ tail).head?.any fun d => d == '.' || isIdentifierStart d) = true := by
        cases u with
        | nil =>
          obtain rfl : m = 0 := by simpa using hm'
          obtain ⟨-, rfl⟩ := mantissa_zero hm
          have hstops : Stops tail := htail.resolve_left (by simp)
          have hnone := hstops.head (P := fun d => (d == '.' || isIdentifierStart d) = false)
            (by decide) (by decide) (by decide) (by decide)
          cases tail with
          | nil => simp
          | cons d tail => simpa using hnone d rfl
        | cons d u => exact hhead
      rw [if_neg hnext]
      exact map_succ_eq_some_iff.2 ⟨m, rfl, ih hm hm'⟩

-- Nothing is taken past a place where a token can end.
theorem mantissa_le {p q e : Bool} {u tail : List Char} {n : Nat}
    (h : mantissa p (u ++ tail) = some (n, q, e)) (htail : Stops tail) : n ≤ u.length := by
  induction u generalizing p n with
  | nil =>
    obtain ⟨rfl, -⟩ : 0 = n ∧ _ := by simpa [mantissa_of_stops htail] using h
    simp
  | cons c u ih =>
    rw [List.cons_append] at h
    obtain hs | ⟨-, hs⟩ | hs | ⟨-, hs⟩ := mantissaStep p c
    · obtain ⟨rfl, -⟩ : 0 = n ∧ _ := by simpa [hs] using h
      simp
    · obtain ⟨rfl, -⟩ : 1 = n ∧ _ := by simpa [hs] using h
      simp
    · obtain ⟨m, rfl, hm⟩ := map_succ_eq_some_iff.1 (hs _ ▸ h)
      simpa using ih hm
    · rw [hs] at h
      split at h
      · cases h
      obtain ⟨m, rfl, hm⟩ := map_succ_eq_some_iff.1 h
      simpa using ih hm

-- A mantissa that a mark ends, and the mark.
theorem exists_mark {p q : Bool} {cs : List Char} {n : Nat} (h : mantissa p cs = some (n, q, true)) :
    ∃ k mark rest, n = k + 1 ∧ cs.drop k = mark :: rest ∧ isIdentifierStart mark = true := by
  induction cs generalizing p n with
  | nil => simp [mantissa] at h
  | cons c cs ih =>
    have hmore : ∀ {p m}, mantissa p cs = some (m, q, true) → ∃ k mark rest, m + 1 = k + 1 ∧
        (c :: cs).drop k = mark :: rest ∧ isIdentifierStart mark = true := by
      intro p m hm
      obtain ⟨k, mark, rest, rfl, hdrop, hmark⟩ := ih hm
      exact ⟨k + 1, mark, rest, rfl, by simpa using hdrop, hmark⟩
    obtain hs | ⟨hc, hs⟩ | hs | ⟨-, hs⟩ := mantissaStep p c
    · simp [hs] at h
    · obtain ⟨rfl, -⟩ : 1 = n ∧ _ := by simpa [hs] using h
      exact ⟨0, c, cs, rfl, rfl, hc⟩
    · obtain ⟨m, rfl, hm⟩ := map_succ_eq_some_iff.1 (hs _ ▸ h)
      exact hmore hm
    · rw [hs] at h
      split at h
      · cases h
      obtain ⟨m, rfl, hm⟩ := map_succ_eq_some_iff.1 h
      exact hmore hm

-- Without a point among the digits there is none in the mantissa.
theorem mantissa_point {p q e : Bool} {u tail : List Char} {n : Nat}
    (h : mantissa p (u ++ tail) = some (n, q, e)) (hu : '.' ∉ u) (htail : Stops tail) : q = p := by
  induction u generalizing p n with
  | nil => simpa [mantissa_of_stops htail, eq_comm] using (by simpa [mantissa_of_stops htail] using h : _ ∧ p = q ∧ _).2.1
  | cons c u ih =>
    obtain ⟨hc, hu⟩ : c ≠ '.' ∧ '.' ∉ u := by simpa [eq_comm] using hu
    rw [List.cons_append] at h
    obtain hs | ⟨-, hs⟩ | hs | ⟨hpoint, -⟩ := mantissaStep p c
    · exact (by simpa [hs] using h : _ ∧ p = q ∧ _).2.1.symm
    · exact (by simpa [hs] using h : _ ∧ p = q ∧ _).2.1.symm
    · obtain ⟨m, rfl, hm⟩ := map_succ_eq_some_iff.1 (hs _ ▸ h)
      exact ih hm hu
    · exact absurd hpoint hc

-- What an exponent does with its next character.
inductive ExponentStep (s d : Bool) (c : Char) : Prop where
  | stop (h : ∀ cs, exponent s d (c :: cs) = some (0, d))
  | spoil (h : ∀ cs, exponent s d (c :: cs) = none)
  | more (s' d' : Bool)
      (h : ∀ cs, exponent s d (c :: cs) = (exponent s' d' cs).map fun (n, r) => (n + 1, r))

theorem exponentStep (s d : Bool) (c : Char) : ExponentStep s d c := by
  by_cases hsign : c = '+' ∨ c = '-'
  · cases d with
    | true => exact .stop fun cs => by rw [exponent, if_pos hsign, if_pos rfl]
    | false =>
      cases s with
      | true => exact .spoil fun cs => by rw [exponent, if_pos hsign]; rfl
      | false => exact .more true false fun cs => by rw [exponent, if_pos hsign]; rfl
  by_cases hdigit : c.isDigit = true
  · exact .more s true fun cs => by rw [exponent, if_neg hsign, if_pos hdigit]
  by_cases hline : c = '_'
  · exact .more s d fun cs => by rw [exponent, if_neg hsign, if_neg hdigit, if_pos hline]
  · exact .stop fun cs => by rw [exponent, if_neg hsign, if_neg hdigit, if_neg hline]

theorem exponent_zero {s d d' : Bool} {cs : List Char} (h : exponent s d cs = some (0, d')) :
    d' = d := by
  cases cs with
  | nil => simpa [exponent, eq_comm] using h
  | cons c cs =>
    obtain hs | hs | ⟨s', d', hs⟩ := exponentStep s d c
    · simpa [hs, eq_comm] using h
    · simp [hs] at h
    · simp [hs] at h

theorem exponent_of_stops {tail : List Char} (h : Stops tail) (s d : Bool) :
    exponent s d tail = some (0, d) := by
  cases tail with
  | nil => rfl
  | cons c tail => obtain rfl | rfl | rfl | rfl := h c rfl <;> simp [exponent]

-- An exponent with a digit ends where a name would.
theorem exponent_of_ended {tail : List Char} (h : Ended tail) (s : Bool) :
    exponent s true tail = some (0, true) := by
  cases tail with
  | nil => rfl
  | cons c tail =>
    have hrest := h c rfl
    have hdigit : c.isDigit = false := by
      by_contra hd
      simp [isIdentifierRest_of_isDigit (Bool.not_eq_false _ ▸ hd)] at hrest
    have hline : c ≠ '_' := by
      rintro rfl
      revert hrest
      decide
    simp [exponent, hdigit, hline]

theorem exponent_append {s d d' : Bool} {u rest tail : List Char} {n : Nat}
    (h : exponent s d (u ++ rest) = some (n, d')) (hn : n ≤ u.length)
    (htail : d' = true ∧ Ended tail ∨ Stops tail) : exponent s d (u ++ tail) = some (n, d') := by
  induction u generalizing s d n with
  | nil =>
    obtain rfl : n = 0 := by simpa using hn
    obtain rfl := exponent_zero h
    obtain ⟨rfl, htail⟩ | htail := htail
    · exact exponent_of_ended htail s
    · exact exponent_of_stops htail s d'
  | cons c u ih =>
    rw [List.cons_append] at h ⊢
    obtain hs | hs | ⟨s', d', hs⟩ := exponentStep s d c
    · rwa [hs] at h ⊢
    · rwa [hs] at h ⊢
    · rw [hs, map_succ_eq_some_iff] at h ⊢
      obtain ⟨m, rfl, hm⟩ := h
      exact ⟨m, rfl, ih hm (by simpa using hn)⟩

theorem exponent_le {s d d' : Bool} {u tail : List Char} {n : Nat}
    (h : exponent s d (u ++ tail) = some (n, d')) (htail : Stops tail) : n ≤ u.length := by
  induction u generalizing s d n with
  | nil =>
    obtain ⟨rfl, -⟩ : 0 = n ∧ _ := by simpa [exponent_of_stops htail] using h
    simp
  | cons c u ih =>
    rw [List.cons_append] at h
    obtain hs | hs | ⟨s', d', hs⟩ := exponentStep s d c
    · obtain ⟨rfl, -⟩ : 0 = n ∧ _ := by simpa [hs] using h
      simp
    · simp [hs] at h
    · obtain ⟨m, rfl, hm⟩ := map_succ_eq_some_iff.1 (hs _ ▸ h)
      simpa using ih hm

-- The three kinds of fractions: with an exponent, with a mark that is none, and with a point only.
inductive FractionParts (cs : List Char) (n : Nat) : Prop where
  | exponent {k m : Nat} {point : Bool} (hmantissa : mantissa false cs = some (k, point, true))
      (hexponent : exponent false false (cs.drop k) = some (m, true)) (hn : n = 1 + k + m)
  | mark {k : Nat} (hmantissa : mantissa false cs = some (k, true, true))
      (hexponent : ∀ m, exponent false false (cs.drop k) ≠ some (m, true)) (hn : n = k)
  | point {k : Nat} (hmantissa : mantissa false cs = some (k, true, false)) (hn : n = 1 + k)

theorem floatLength_cons_eq_some_iff {c : Char} {cs : List Char} {n : Nat} :
    floatLength (c :: cs) = some n ↔ c.isDigit = true ∧ FractionParts cs n := by
  rw [floatLength]
  split
  · rename_i hdigit
    simp only [hdigit, true_and]
    split
    · rename_i k point hm
      constructor
      · intro h
        split at h
        · rename_i m hx
          exact .exponent hm hx (Option.some.inj h).symm
        · rename_i hx
          split at h
          · rename_i hpoint
            subst hpoint
            exact .mark hm (fun m => hx m) (Option.some.inj h).symm
          · cases h
      · rintro (⟨hm', hx, rfl⟩ | ⟨hm', hx, rfl⟩ | ⟨hm', rfl⟩)
        · obtain ⟨rfl, rfl⟩ : _ ∧ _ := by simpa using hm.symm.trans hm'
          simp [hx]
        · obtain ⟨rfl, rfl⟩ : _ ∧ _ := by simpa using hm.symm.trans hm'
          split
          · rename_i hx'
            exact absurd hx' (hx _)
          · rfl
        · simp [hm] at hm'
    · rename_i k hm
      constructor
      · exact fun h => .point hm (Option.some.inj h).symm
      · rintro (⟨hm', -, -⟩ | ⟨hm', -, -⟩ | ⟨hm', rfl⟩)
        · simp [hm] at hm'
        · simp [hm] at hm'
        · obtain rfl : k = _ := by simpa using hm.symm.trans hm'
          rfl
    · rename_i hmark hpoint
      simp only [reduceCtorEq, false_iff]
      rintro (⟨hm, -, -⟩ | ⟨hm, -, -⟩ | ⟨hm, -⟩)
      · exact hmark _ _ hm
      · exact hmark _ _ hm
      · exact hpoint _ hm
  · rename_i hdigit
    simp [hdigit]

theorem FractionParts.pos {cs : List Char} {n : Nat} (h : FractionParts cs n) : 0 < n := by
  obtain ⟨hm, -, rfl⟩ | ⟨hm, -, rfl⟩ | ⟨-, rfl⟩ := h
  · omega
  · obtain ⟨k, -, -, rfl, -, -⟩ := exists_mark hm
    omega
  · omega

end Lifecycle.Literal
