import Lifecycle.Proofs.Token.Names

namespace Lifecycle.Literal

open Text Lexer

-- A scanner that accepts within some characters does not look at what follows them.
theorem scan_append {σ : Type} {step : σ → Char → Verdict σ} {s : σ} {u rest : List Char} {n : Nat}
    (h : scan step s (u ++ rest) = some n) (hn : n ≤ u.length) (tail : List Char) :
    scan step s (u ++ tail) = some n := by
  induction u generalizing s n with
  | nil =>
    obtain rfl : n = 0 := by simpa using hn
    cases rest with
    | nil => simp [scan] at h
    | cons c rest =>
      simp only [List.nil_append, scan] at h
      split at h <;> simp at h
  | cons c u ih =>
    simp only [List.cons_append, scan] at h ⊢
    cases hstep : step s c with
    | next s' =>
      simp only [hstep] at h ⊢
      obtain ⟨m, hm, rfl⟩ := Option.map_eq_some_iff.1 h
      simp [ih hm (by simpa using hn)]
    | accept => simpa [hstep] using h
    | reject => simp [hstep] at h

theorem scan_pos {σ : Type} {step : σ → Char → Verdict σ} {s : σ} {cs : List Char} {n : Nat}
    (h : scan step s cs = some n) : 0 < n := by
  cases cs with
  | nil => simp [scan] at h
  | cons c cs =>
    simp only [scan] at h
    split at h
    · obtain ⟨m, -, rfl⟩ := Option.map_eq_some_iff.1 h
      omega
    · simp at h
      omega
    · simp at h

theorem scan_le {σ : Type} {step : σ → Char → Verdict σ} {s : σ} {cs : List Char} {n : Nat}
    (h : scan step s cs = some n) : n ≤ cs.length := by
  induction cs generalizing s n with
  | nil => simp [scan] at h
  | cons c cs ih =>
    simp only [scan] at h
    split at h
    · obtain ⟨m, hm, rfl⟩ := Option.map_eq_some_iff.1 h
      simpa using ih hm
    · simp at h
      simp [← h]
    · simp at h

theorem rawLength_replicate (f : Flavour) (k : Nat) (cs : List Char) :
    rawLength f (List.replicate k '#' ++ '\x22' :: cs) =
      if k ≤ maxHashes then (scan (Raw.step f k) .body cs).map (· + (k + 1)) else none := by
  have htake : ((List.replicate k '#' ++ '\x22' :: cs).takeWhile (· == '#')).length = k := by
    rw [takeWhile_append_of_all (by simp) (by simp)]
    simp
  have hdrop : (List.replicate k '#' ++ '\x22' :: cs).drop k = '\x22' :: cs :=
    List.drop_left' (by simp)
  simp only [rawLength, htake, hdrop]

-- A raw string starts with some hashes and a quote.
theorem exists_of_rawLength {f : Flavour} {cs : List Char} {n : Nat}
    (h : rawLength f cs = some n) :
    ∃ k r, cs = List.replicate k '#' ++ '\x22' :: r := by
  unfold rawLength at h
  simp only at h
  split at h
  · rename_i r hdrop
    have hhashes : cs.takeWhile (· == '#') =
        List.replicate (cs.takeWhile (· == '#')).length '#' :=
      List.eq_replicate_of_mem fun c hc => by simpa using List.mem_takeWhile_imp hc
    refine ⟨(cs.takeWhile (· == '#')).length, r, ?_⟩
    rw [← hhashes, ← hdrop]
    exact List.prefix_iff_eq_append.1 (List.takeWhile_prefix _) |>.symm
  · cases h

theorem rawLength_append {f : Flavour} {u rest : List Char} {n : Nat}
    (h : rawLength f (u ++ rest) = some n) (hn : n ≤ u.length) (tail : List Char) :
    rawLength f (u ++ tail) = some n := by
  obtain ⟨k, r, hcs⟩ := exists_of_rawLength h
  rw [hcs, rawLength_replicate] at h
  split at h
  · rename_i hk
    obtain ⟨m, hm, rfl⟩ := Option.map_eq_some_iff.1 h
    have hprefix : List.replicate k '#' ++ ['\x22'] <+: u :=
      List.prefix_of_prefix_length_le ⟨r, by simp [hcs]⟩ (List.prefix_append u rest)
        (by simp; omega)
    obtain ⟨u, rfl⟩ := hprefix
    obtain rfl : u ++ rest = r := by simpa using hcs
    have hm' : m ≤ u.length := by
      simp only [List.length_append, List.length_replicate, List.length_singleton] at hn
      omega
    have happend : List.replicate k '#' ++ ['\x22'] ++ u ++ tail =
        List.replicate k '#' ++ '\x22' :: (u ++ tail) := by simp
    rw [happend, rawLength_replicate, if_pos hk, scan_append hm hm' tail]
    rfl
  · cases h

theorem rawLength_pos {f : Flavour} {cs : List Char} {n : Nat} (h : rawLength f cs = some n) :
    0 < n := by
  obtain ⟨k, r, rfl⟩ := exists_of_rawLength h
  rw [rawLength_replicate] at h
  split at h
  · obtain ⟨m, -, rfl⟩ := Option.map_eq_some_iff.1 h
    omega
  · cases h

theorem rawLength_le {f : Flavour} {cs : List Char} {n : Nat} (h : rawLength f cs = some n) :
    n ≤ cs.length := by
  obtain ⟨k, r, rfl⟩ := exists_of_rawLength h
  rw [rawLength_replicate] at h
  split at h
  · obtain ⟨m, hm, rfl⟩ := Option.map_eq_some_iff.1 h
    have hle := scan_le hm
    simp only [List.length_append, List.length_replicate, List.length_cons]
    omega
  · cases h

theorem quotedLength_le {cs : List Char} {n : Nat} (h : quotedLength cs = some n) :
    n ≤ cs.length := by
  unfold quotedLength at h
  split at h
  case h_9 => cases h
  all_goals
    obtain ⟨m, hm, rfl⟩ := Option.map_eq_some_iff.1 h
    simp only [List.length_cons]
    first
      | exact Nat.add_le_add_right (scan_le hm) _
      | exact Nat.add_le_add_right (rawLength_le hm) _

theorem two_le_quotedLength {cs : List Char} {n : Nat} (h : quotedLength cs = some n) : 2 ≤ n := by
  unfold quotedLength at h
  split at h
  case h_9 => cases h
  all_goals
    obtain ⟨m, hm, rfl⟩ := Option.map_eq_some_iff.1 h
    first
      | have hpos := scan_pos hm
        omega
      | have hpos := rawLength_pos hm
        omega

theorem quotedLength_append {u rest : List Char} {n : Nat}
    (h : quotedLength (u ++ rest) = some n) (hn : n ≤ u.length) (tail : List Char) :
    quotedLength (u ++ tail) = some n := by
  have htwo := two_le_quotedLength h
  match u, hn with
  | [], hn => simp at hn; omega
  | [c], hn => simp at hn; omega
  | c :: d :: u, hn =>
    simp only [List.length_cons] at hn
    rw [List.cons_append, List.cons_append] at h ⊢
    unfold quotedLength at h
    split at h
    case h_9 => cases h
    all_goals
      rename_i heq
      obtain ⟨m, hm, rfl⟩ := Option.map_eq_some_iff.1 h
    -- One character announces the literal.
    case h_1 | h_8 =>
      obtain ⟨rfl, rfl⟩ := List.cons.inj heq
      have hscan := scan_append (u := d :: u) hm (by simpa using hn) tail
      exact Option.map_eq_some_iff.2 ⟨m, hscan, rfl⟩
    case h_2 =>
      obtain ⟨rfl, rfl⟩ := List.cons.inj heq
      have hraw := rawLength_append (u := d :: u) hm (by simpa using hn) tail
      exact Option.map_eq_some_iff.2 ⟨m, hraw, rfl⟩
    -- Two characters announce it.
    case h_3 | h_5 | h_6 =>
      obtain ⟨rfl, rfl, rfl⟩ : c = _ ∧ d = _ ∧ u ++ rest = _ := by simpa using heq
      exact Option.map_eq_some_iff.2 ⟨m, scan_append hm (by omega) tail, rfl⟩
    case h_4 | h_7 =>
      obtain ⟨rfl, rfl, rfl⟩ : c = _ ∧ d = _ ∧ u ++ rest = _ := by simpa using heq
      exact Option.map_eq_some_iff.2 ⟨m, rawLength_append hm (by omega) tail, rfl⟩

end Lifecycle.Literal
