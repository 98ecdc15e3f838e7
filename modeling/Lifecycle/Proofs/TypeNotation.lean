import Lifecycle.Proofs.OwnerTypes

namespace Lifecycle

open Text

-- Bounds that ask for the same: two traits of one name, whatever modules are named in front of it.
inductive Bound.Alike : Bound → Bound → Prop where
  | refl (b : Bound) : Alike b b
  | trait (parens : Option (Position × Position)) (before : List Tree) {path path' : Path}
    (h : path.last.name.text = path'.last.name.text) :
    Alike (.trait parens before path) (.trait parens before path')

namespace Bound

theorem Alike.traitName?_eq {b b' : Bound} (h : b.Alike b') : b.traitName? = b'.traitName? := by
  cases h with
  | refl => rfl
  | «trait» _ _ h => exact congrArg some h

-- Lifetimes add nothing to the names of the traits.
theorem traitNames_eq_filterMap (bounds : List (Bound × List Tree)) :
    traitNames bounds = ((bounds.map (·.1)).filter (!·.isLifetime)).filterMap (·.traitName?) := by
  rw [List.filterMap_filter, List.filterMap_map]
  refine List.filterMap_congr fun b _ => ?_
  obtain ⟨b, plus⟩ := b
  cases b <;> rfl

theorem filterMap_traitName?_eq {bounds bounds' : List Bound}
    (h : List.Forall₂ Bound.Alike bounds bounds') :
    bounds.filterMap (·.traitName?) = bounds'.filterMap (·.traitName?) := by
  induction h with
  | nil => rfl
  | cons hb _ ih => rw [List.filterMap_cons, List.filterMap_cons, hb.traitName?_eq, ih]

end Bound

namespace Ty

-- Types that differ in notation only: in the brackets around them, be they seen or not, in the
-- lifetimes of references and of objects of traits, and in the modules in front of the name of a
-- trait or of a type without arguments. This holds along the references and brackets from the
-- outside; what they lead to is the same else.
inductive Alike : Ty → Ty → Prop where
  | refl (t : Ty) : Alike t t
  | addParens {elem t : Ty} (start stop : Position) (h : Alike t elem) :
    Alike t (.paren elem start stop)
  | dropParens {elem t : Ty} (start stop : Position) (h : Alike elem t) :
    Alike (.paren elem start stop) t
  | addInvisible {elem t : Ty} (h : Alike t elem) : Alike t (.invisible elem)
  | dropInvisible {elem t : Ty} (h : Alike elem t) : Alike (.invisible elem) t
  | reference {elem elem' : Ty} (mark mark' lifetime lifetime' : List Tree)
    {mutable mutable' : List Tree} (hmut : mutable.isEmpty = mutable'.isEmpty)
    (h : Alike elem elem') :
    Alike (.reference mark lifetime mutable elem) (.reference mark' lifetime' mutable' elem')
  | traitObject (dynWord dynWord' : List Tree) {bounds bounds' : List (Bound × List Tree)}
    (h : List.Forall₂ Bound.Alike ((bounds.map (·.1)).filter (!·.isLifetime))
      ((bounds'.map (·.1)).filter (!·.isLifetime))) :
    Alike (.traitObject dynWord bounds) (.traitObject dynWord' bounds')
  | path {p p' : Path} (hname : p.last.name.text = p'.last.name.text)
    (hargs : p.last.arguments.isEmpty = true) (hargs' : p'.last.arguments.isEmpty = true) :
    Alike (.path none p) (.path none p')

theorem Alike.describe_eq {t t' : Ty} (h : t.Alike t') : t.describe = t'.describe := by
  induction h with
  | refl t => rfl
  | addParens _ _ _ ih => exact ih
  | dropParens _ _ _ ih => exact ih
  | addInvisible _ ih => exact ih
  | dropInvisible _ ih => exact ih
  | reference _ _ _ _ hmut _ ih => rw [describe, describe, hmut, ih]
  | traitObject _ _ h =>
    rw [describe, describe, Bound.traitNames_eq_filterMap, Bound.traitNames_eq_filterMap,
      Bound.filterMap_traitName?_eq h]
  | path hname hargs hargs' => rw [describe, describe, if_pos hargs, if_pos hargs', hname]

-- A type is named like the event exactly if it is, in any brackets, a path without a qualified self
-- type whose last segment has that name and no arguments; so nothing else is taken for the event.
-- Types that differ in notation only have the same canonical name and the same capabilities.
theorem describe_of_alike {t : Ty} (h : t.Written) :
    (t.describe.name = "LifecycleEvent" ↔
      ∃ p, t.bare = .path none p ∧ p.last.arguments.isEmpty = true ∧
        p.last.name.text = "LifecycleEvent") ∧
    ∀ t', t.Alike t' → t'.describe = t.describe := by
  refine ⟨?_, fun t' halike => halike.describe_eq.symm⟩
  rw [name_describe_eq_iff h.shaped (by decide), ← bare_iff_peel fun _ _ _ _ => id]
  cases t.bare with
  | path qself p => cases qself <;> simp [IsNamed]
  | _ => simp [IsNamed]

-- Whether a type is a reference to an object of the owner's trait, with a lifetime and in brackets.
def isLongOwner : Ty → Bool
  | .reference _ _ [] (.paren (.paren (.traitObject _ [(.trait none [] p, _), (.lifetime _, _)]) _ _)
      _ _) => p.last.name.text == "LifecycleOwner"
  | _ => false

-- Whether a type is a reference to an object of the owner's trait and nothing else.
def isShortOwner : Ty → Bool
  | .reference _ _ [] (.traitObject _ [(.trait none [] p, _)]) =>
    p.last.name.text == "LifecycleOwner"
  | _ => false

-- Whether a type is a path to the event, without arguments.
def isEventPath : Ty → Bool
  | .path none p => p.last.arguments.isEmpty && p.last.name.text == "LifecycleEvent"
  | _ => false

-- An owner behind a reference, written out and in short, and the event in brackets.
theorem describe_of_alike_samples :
    (∃ t t', ofText? "&'a ((dyn vigil_lifecycle::LifecycleOwner + 'a))" = some t ∧
      ofText? "&dyn LifecycleOwner" = some t' ∧ t.Written ∧ t.Alike t' ∧
      t'.describe = t.describe) ∧
    ∃ t, ofText? "((vigil_lifecycle::LifecycleEvent<>))" = some t ∧ t.Written ∧
      t.describe.name = "LifecycleEvent" := by
  refine ⟨?_, ?_⟩
  · have hlong : (ofText? "&'a ((dyn vigil_lifecycle::LifecycleOwner + 'a))").any isLongOwner =
        true := by decide +kernel
    have hshort : (ofText? "&dyn LifecycleOwner").any isShortOwner = true := by decide +kernel
    obtain ⟨t, ht, hlong⟩ := (Option.any_eq_true _ _).1 hlong
    obtain ⟨t', ht', hshort⟩ := (Option.any_eq_true _ _).1 hshort
    have halike : t.Alike t' := by
      unfold isLongOwner at hlong
      unfold isShortOwner at hshort
      split at hlong
      · split at hshort
        · have hname := (beq_iff_eq.1 hlong).trans (beq_iff_eq.1 hshort).symm
          refine .reference _ _ _ _ rfl (.dropParens _ _ (.dropParens _ _ (.traitObject _ _ ?_)))
          exact .cons (.trait none [] hname) .nil
        · cases hshort
      · cases hlong
    have hwritten := written_of_ofText? ht
    exact ⟨t, t', ht, ht', hwritten, halike, (describe_of_alike hwritten).2 t' halike⟩
  · have hevent : (ofText? "((vigil_lifecycle::LifecycleEvent<>))").any (fun t =>
        isEventPath t.bare) = true := by decide +kernel
    obtain ⟨t, ht, hevent⟩ := (Option.any_eq_true _ _).1 hevent
    unfold isEventPath at hevent
    split at hevent
    · rename_i p hbare
      obtain ⟨hargs, hname⟩ := Bool.and_eq_true_iff.1 hevent
      have hwritten := written_of_ofText? ht
      exact ⟨t, ht, hwritten,
        (describe_of_alike hwritten).1.2 ⟨p, hbare, hargs, beq_iff_eq.1 hname⟩⟩
    · cases hevent

end Ty

end Lifecycle
