import Lifecycle.Proofs.Outcome
import Lifecycle.Proofs.SharedLog

namespace Lifecycle

namespace Callback

-- Whether two callbacks have one name, and parameters of the same types one by one.
def SharesSignature (c e : Callback) : Prop :=
  c.name = e.name ∧ List.Forall₂ (fun s t => s.name = t.name) c.params e.params

theorem sharesSignature_iff {c e : Callback} : c.SharesSignature e ↔ c.signature = e.signature := by
  rw [SharesSignature, signature, signature, Prod.mk.injEq, ← List.forall₂_eq_eq_eq,
    List.forall₂_map_left_iff, List.forall₂_map_right_iff]

instance (c e : Callback) : Decidable (c.SharesSignature e) :=
  decidable_of_iff _ sharesSignature_iff.symm

end Callback

namespace Declaration

-- Whether a callback stays among those of a class: it is the class's own, or no callback that is
-- declared before it has its signature.
def Stays (subject : ClassPath) (earlier : List Callback) (c : Callback) : Prop :=
  c.declaringClass = subject ∨ ∀ e ∈ earlier, ¬ e.SharesSignature c

instance (subject : ClassPath) (earlier : List Callback) (c : Callback) :
    Decidable (Stays subject earlier c) :=
  inferInstanceAs (Decidable (_ ∨ _))

-- Callbacks of the same signatures, whatever else they are.
def SameSignatures (xs ys : List Callback) : Prop :=
  ∀ c : Callback, (∃ x ∈ xs, x.SharesSignature c) ↔ ∃ y ∈ ys, y.SharesSignature c

section Step

variable {subject : ClassPath} {kept earlier : List Callback}

-- The kept callbacks have all the signatures of those that were declared so far, so that looking at
-- them alone tells whether one more callback stays.
theorem keep_eq (h : SameSignatures kept earlier) (c : Callback) :
    keep subject kept c = kept ++ if Stays subject earlier c then [c] else [] := by
  have hany : kept.any (·.sameSignature c) = true ↔ ∃ e ∈ earlier, e.SharesSignature c := by
    rw [← h c, List.any_eq_true]
    simp only [Callback.sameSignature, beq_iff_eq, Callback.sharesSignature_iff]
  by_cases hstays : Stays subject earlier c
  · have hadd : ¬ (c.declaringClass ≠ subject ∧ kept.any (·.sameSignature c) = true) := by
      rw [hany]
      rintro ⟨hinherited, e, he, hshares⟩
      exact hstays.elim hinherited fun hnew => hnew e he hshares
    rw [keep, if_neg hadd, if_pos hstays]
  · have hdrop : c.declaringClass ≠ subject ∧ kept.any (·.sameSignature c) = true := by
      rw [hany]
      obtain ⟨hinherited, hseen⟩ := not_or.1 hstays
      push Not at hseen
      exact ⟨hinherited, hseen⟩
    rw [keep, if_pos hdrop, if_neg hstays, List.append_nil]

theorem SameSignatures.keep (h : SameSignatures kept earlier) (c : Callback) :
    SameSignatures (keep subject kept c) (earlier ++ [c]) := by
  intro e
  rw [keep_eq h c]
  by_cases hstays : Stays subject earlier c
  · simp only [hstays, if_true, List.mem_append, or_and_right, exists_or, h e]
  · -- A callback that is dropped brings no signature of its own.
    have hcover : c.SharesSignature e → ∃ y ∈ earlier, y.SharesSignature e := by
      intro hc
      obtain ⟨-, hseen⟩ := not_or.1 hstays
      push Not at hseen
      obtain ⟨y, hy, hyc⟩ := hseen
      rw [Callback.sharesSignature_iff] at hc hyc
      exact ⟨y, hy, Callback.sharesSignature_iff.2 (hyc.trans hc)⟩
    simp only [hstays, if_false, List.append_nil, h e, List.mem_append, List.mem_singleton,
      or_and_right, exists_or, exists_eq_left]
    exact ⟨.inl, fun hor => hor.elim id hcover⟩

-- No inherited callback has the signature of one before it.
theorem pairwise_keep
    (h : kept.Pairwise fun e c => c.declaringClass = subject ∨ ¬ e.SharesSignature c)
    (c : Callback) :
    (keep subject kept c).Pairwise fun e c => c.declaringClass = subject ∨ ¬ e.SharesSignature c := by
  rw [keep_eq fun _ => Iff.rfl]
  by_cases hstays : Stays subject kept c
  · rw [if_pos hstays, List.pairwise_append]
    refine ⟨h, List.pairwise_singleton _ c, fun e he x hx => ?_⟩
    obtain rfl := List.mem_singleton.1 hx
    exact hstays.imp_right fun hnew => hnew e he
  · simpa [hstays] using h

end Step

theorem foldl_keep_eq (subject : ClassPath) (callbacks : List Callback) {kept earlier : List Callback}
    (h : SameSignatures kept earlier) :
    callbacks.foldl (keep subject) kept = kept ++
      ((withEarlier callbacks).filter fun x => Stays subject (earlier ++ x.1) x.2).map (·.2) := by
  induction callbacks generalizing kept earlier with
  | nil => simp [withEarlier]
  | cons c rest ih =>
    rw [List.foldl_cons, ih (h.keep c), keep_eq h c, withEarlier_cons, List.filter_cons,
      List.filter_map, List.append_nil]
    simp only [Function.comp_def, List.append_assoc, List.singleton_append]
    by_cases hstays : Stays subject earlier c <;> simp [hstays, Function.comp_def]

theorem kept_eq (d : Declaration) :
    d.kept = ((withEarlier d.callbacks).filter fun x => Stays d.subject x.1 x.2).map (·.2) := by
  have hnil : SameSignatures [] [] := fun _ => Iff.rfl
  rw [kept, foldl_keep_eq d.subject d.callbacks hnil]
  simp only [List.nil_append]

theorem sameSignatures_kept (d : Declaration) : SameSignatures d.kept d.callbacks := by
  have hrun : ∀ (callbacks : List Callback) {kept earlier : List Callback},
      SameSignatures kept earlier →
        SameSignatures (callbacks.foldl (keep d.subject) kept) (earlier ++ callbacks) := by
    intro callbacks
    induction callbacks with
    | nil => simp
    | cons c rest ih =>
      intro kept earlier h
      simpa using ih (h.keep c)
  exact hrun d.callbacks fun _ => Iff.rfl

theorem pairwise_kept (d : Declaration) :
    d.kept.Pairwise fun e c => c.declaringClass = d.subject ∨ ¬ e.SharesSignature c :=
  List.foldlRecOn d.callbacks _ .nil fun _ h c _ => pairwise_keep h c

theorem prefix_kept_append (subject : ClassPath) (before after : List Callback) :
    (Declaration.mk subject before).kept <+: (Declaration.mk subject (before ++ after)).kept := by
  rw [kept, kept, List.foldl_append]
  exact prefix_foldl_keep subject after _

-- The callbacks of a class that stay, in the order of their declaration: all its own ones, and of the
-- inherited ones those whose signature no callback before them has, be that one kept or not. So the
-- class's own callbacks all stay, for each one that is dropped a kept one stands before it, no two
-- kept inherited ones share a signature, the first callback stays, and all kept ones stay again.
theorem kept_of_declaration (d : Declaration) :
    d.kept = ((withEarlier d.callbacks).filter fun x => Stays d.subject x.1 x.2).map (·.2) ∧
    d.kept.filter (·.declaringClass = d.subject) =
      d.callbacks.filter (·.declaringClass = d.subject) ∧
    (∀ before c after, d.callbacks = before ++ c :: after → ¬ Stays d.subject before c →
      (Declaration.mk d.subject before).kept <+: d.kept ∧
        ∃ e ∈ (Declaration.mk d.subject before).kept, e.SharesSignature c) ∧
    (d.kept.filter (·.declaringClass ≠ d.subject)).Pairwise (fun e c => ¬ e.SharesSignature c) ∧
    d.kept.head? = d.callbacks.head? ∧
    ({ d with callbacks := d.kept } : Declaration).kept = d.kept := by
  refine ⟨kept_eq d, ?_, fun before c after hsplit hdropped => ⟨?_, ?_⟩, ?_, ?_, ?_⟩
  · rw [kept_eq, List.filter_map, List.filter_filter]
    conv_rhs => rw [← map_snd_withEarlier d.callbacks, List.filter_map]
    refine congrArg _ (List.filter_congr fun x _ => ?_)
    by_cases hown : x.2.declaringClass = d.subject <;> simp [hown, Stays]
  · have hprefix := prefix_kept_append d.subject before (c :: after)
    rwa [← hsplit] at hprefix
  · obtain ⟨-, hseen⟩ := not_or.1 hdropped
    push Not at hseen
    exact (sameSignatures_kept ⟨d.subject, before⟩ c).2 hseen
  · refine (d.pairwise_kept.filter _).imp_of_mem fun _ hc hor => ?_
    exact hor.resolve_left (by simpa using (List.mem_filter.1 hc).2)
  · cases hcallbacks : d.callbacks with
    | nil => rw [(kept_eq_nil_iff d).2 hcallbacks]
    | cons c rest => rw [kept_eq, hcallbacks, withEarlier_cons]; simp [Stays]
  · have hall : (withEarlier d.kept).filter (fun x => Stays d.subject x.1 x.2) =
        withEarlier d.kept := by
      refine List.filter_eq_self.2 fun x hx => ?_
      have hpair := (forall_withEarlier_iff_pairwise d.kept).2 d.pairwise_kept x hx
      by_cases hown : x.2.declaringClass = d.subject
      · simp [Stays, hown]
      · simpa [Stays, hown] using hpair
    rw [kept_eq ⟨d.subject, d.kept⟩, hall, map_snd_withEarlier]

end Declaration

end Lifecycle
