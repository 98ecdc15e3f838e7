import Lifecycle.Proofs.Token.Literals.Fractions

namespace Lifecycle.Literal

open Text Lexer

-- The characters that an identifier takes.
theorem all_of_identifierLength {u rest : List Char} (h : identifierLength (u ++ rest) = u.length) :
    ∀ c ∈ u, isIdentifierRest c = true := by
  cases u with
  | nil => simp
  | cons c u =>
    by_cases hstart : isIdentifierStart c = true
    · have hlen : ((u ++ rest).takeWhile isIdentifierRest).length = u.length := by
        simpa [identifierLength, hstart] using h
      have htake : (u ++ rest).takeWhile isIdentifierRest = u :=
        List.prefix_of_prefix_length_le (List.takeWhile_prefix _) (List.prefix_append u rest)
          hlen.le |>.eq_of_length hlen
      refine List.forall_mem_cons.2 ⟨isIdentifierRest_of_start hstart, fun d hd => ?_⟩
      exact List.mem_takeWhile_imp (htake ▸ hd)
    · simp [identifierLength, hstart] at h

theorem identifierLength_of_ended {tail : List Char} (h : Ended tail) : identifierLength tail = 0 := by
  cases tail with
  | nil => rfl
  | cons c tail =>
    by_cases hstart : isIdentifierStart c = true
    · have hrest := h c rfl
      simp [isIdentifierRest_of_start hstart] at hrest
    · simp [identifierLength, hstart]

theorem identifierLength_append_of_eq {u rest tail : List Char}
    (h : identifierLength (u ++ rest) = u.length) (htail : Ended tail) :
    identifierLength (u ++ tail) = u.length := by
  cases u with
  | nil => exact identifierLength_of_ended htail
  | cons c u =>
    have hall := all_of_identifierLength h
    by_cases hstart : isIdentifierStart c = true
    · refine identifierLength_append ?_ htail
      exact Bool.and_eq_true_iff.2
        ⟨hstart, List.all_eq_true.2 fun d hd => hall d (List.mem_cons_of_mem _ hd)⟩
    · simp [identifierLength, hstart] at h

-- A suffix and what is before it.
theorem withSuffix_eq_some_iff {cs : List Char} {n m : Nat} :
    withSuffix cs n = some m ↔
      m = n + identifierLength (cs.drop n) ∧ Ended (cs.drop m) := by
  simp only [withSuffix]
  split
  · rename_i hhead
    simp only [reduceCtorEq, false_iff, not_and]
    rintro rfl hended
    obtain ⟨c, hc, hrest⟩ := (Option.any_eq_true _ _).1 hhead
    simp [hended c hc] at hrest
  · rename_i hhead
    simp only [Option.some.injEq]
    constructor
    · rintro rfl
      refine ⟨rfl, fun c hc => ?_⟩
      by_contra hrest
      exact hhead ((Option.any_eq_true _ _).2 ⟨c, hc, Bool.not_eq_false _ ▸ hrest⟩)
    · exact fun h => h.1.symm

section Suffix

variable {u rest tail : List Char} {n : Nat} (h : withSuffix (u ++ rest) n = some u.length)

include h

theorem le_of_withSuffix : n ≤ u.length := by
  obtain ⟨hlen, -⟩ := withSuffix_eq_some_iff.1 h
  omega

theorem identifierLength_of_withSuffix :
    identifierLength (u.drop n ++ rest) = (u.drop n).length := by
  obtain ⟨hlen, -⟩ := withSuffix_eq_some_iff.1 h
  rw [List.drop_append_of_le_length (le_of_withSuffix h)] at hlen
  rw [List.length_drop]
  omega

theorem ended_of_withSuffix : Ended rest := by
  obtain ⟨-, hended⟩ := withSuffix_eq_some_iff.1 h
  simpa using hended

theorem withSuffix_append (htail : Ended tail) : withSuffix (u ++ tail) n = some u.length := by
  have hn := le_of_withSuffix h
  have hsuffix := identifierLength_append_of_eq (identifierLength_of_withSuffix h) htail
  refine withSuffix_eq_some_iff.2 ⟨?_, by simpa using htail⟩
  rw [List.drop_append_of_le_length hn, hsuffix, List.length_drop]
  omega

theorem floatLength_append (hfloat : floatLength (u ++ rest) = some n) (htail : Stops tail) :
    floatLength (u ++ tail) = some n := by
  have hn := le_of_withSuffix h
  cases u with
  | nil =>
    obtain rfl : n = 0 := by simpa using hn
    cases rest with
    | nil => cases hfloat
    | cons c rest => exact absurd (floatLength_cons_eq_some_iff.1 hfloat).2.pos (by simp)
  | cons c u =>
    rw [List.cons_append, floatLength_cons_eq_some_iff] at hfloat ⊢
    obtain ⟨hdigit, hparts⟩ := hfloat
    rw [List.length_cons] at hn
    refine ⟨hdigit, ?_⟩
    obtain @⟨k, m, point, hm, hx, rfl⟩ | @⟨k, hm, hx, rfl⟩ | @⟨k, hm, rfl⟩ := hparts
    · have hk : k ≤ u.length := by omega
      rw [List.drop_append_of_le_length hk] at hx
      refine .exponent (mantissa_append hm hk (.inl rfl)) ?_ rfl
      rw [List.drop_append_of_le_length hk]
      exact exponent_append hx (by rw [List.length_drop]; omega) (.inr htail)
    · -- The mark belongs to the suffix.
      obtain ⟨k, mark, more, rfl, hdrop, hmark⟩ := exists_mark hm
      have hsuffix := identifierLength_of_withSuffix h
      have hk : k + 1 ≤ u.length := by
        by_contra hlt
        have hlen : u.length = k := by omega
        have hrest : rest = mark :: more := by rw [← hdrop, List.drop_left' hlen]
        simp [← hlen, hrest, identifierLength, hmark] at hsuffix
      rw [List.drop_append_of_le_length hk] at hx
      refine .mark (mantissa_append hm hk (.inl rfl)) (fun m hm' => hx m ?_) rfl
      rw [List.drop_append_of_le_length hk] at hm'
      exact exponent_append hm' (exponent_le hm' htail) (.inl ⟨rfl, ended_of_withSuffix h⟩)
    · exact .point (mantissa_append hm (by omega) (.inr htail)) rfl

end Suffix

end Lifecycle.Literal
