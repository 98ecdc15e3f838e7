import Lifecycle.Observer.Describe
import Lifecycle.Proofs.Grammar.TypeShapes

namespace Lifecycle

open Text Lifecycle.Parser

namespace Bound

def isLifetime : Bound → Bool
  | .lifetime _ => true
  | _ => false

theorem IsPlain.traitName?_eq_none_iff {b : Bound} (h : b.IsPlain) :
    b.traitName? = none ↔ b.isLifetime = true := by
  cases b with
  | lifetime ts => simp [traitName?, isLifetime]
  | «trait» parens before path => simp [traitName?, isLifetime]
  | capture ts => exact h.elim
  | verbatim ts => exact h.elim

theorem traitNames_eq_nil_iff {bounds : List (Bound × List Tree)}
    (h : ∀ b ∈ bounds, b.1.IsPlain) :
    traitNames bounds = [] ↔ (bounds.map (·.1)).filter (!·.isLifetime) = [] := by
  simp only [traitNames, List.filterMap_eq_nil_iff, List.filter_eq_nil_iff, List.forall_mem_map,
    Bool.not_eq_true', Bool.not_eq_false]
  exact forall₂_congr fun b hb => (h b hb).traitName?_eq_none_iff

-- The traits among bounds that are traits or lifetimes.
theorem traitNames_eq_singleton_iff {bounds : List (Bound × List Tree)}
    (h : ∀ b ∈ bounds, b.1.IsPlain) {trait : String} :
    traitNames bounds = [trait] ↔
      ∃ parens before path, (bounds.map (·.1)).filter (!·.isLifetime) = [.trait parens before path] ∧
        path.last.name.text = trait := by
  induction bounds with
  | nil => simp [traitNames]
  | cons b rest ih =>
    obtain ⟨hb, hrest⟩ := List.forall_mem_cons.1 h
    obtain ⟨b, plus⟩ := b
    cases b with
    | lifetime ts => simpa [traitNames, traitName?, isLifetime] using ih hrest
    | «trait» parens before path =>
      have hnames : traitNames ((.trait parens before path, plus) :: rest) =
          path.last.name.text :: traitNames rest := rfl
      have hfilter : (((.trait parens before path, plus) :: rest).map (·.1)).filter (!·.isLifetime) =
          Bound.trait parens before path :: (rest.map (·.1)).filter (!·.isLifetime) := rfl
      rw [hnames, hfilter, List.cons.injEq, traitNames_eq_nil_iff hrest]
      constructor
      · rintro ⟨rfl, hnil⟩
        exact ⟨parens, before, path, by rw [hnil], rfl⟩
      · rintro ⟨_, _, _, heq, rfl⟩
        obtain ⟨hb, hnil⟩ := List.cons.inj heq
        obtain ⟨rfl, rfl, rfl⟩ := Bound.trait.inj hb
        exact ⟨rfl, hnil⟩
    | capture ts => exact hb.elim
    | verbatim ts => exact hb.elim

end Bound

namespace Ty

-- Types that a source text can hold: those that are read, also with references and brackets around
-- them that are seen or not.
inductive Written : Ty → Prop where
  | read {depth : Nat} {plus : Bool} {c c' : Cursor} {t : Ty}
      (h : ((Level.ofDepth depth).ty plus).run c = .ok (t, c')) : Written t
  | paren {elem : Ty} (start stop : Position) (h : elem.Written) : Written (.paren elem start stop)
  | invisible {elem : Ty} (h : elem.Written) : Written (.invisible elem)
  | reference {elem : Ty} (mark lifetime mutable : List Tree) (h : elem.Written) :
      Written (.reference mark lifetime mutable elem)

theorem Written.shaped {t : Ty} (h : t.Written) : t.Shaped := by
  induction h with
  | read h => exact Grammar.yields_ty_ofDepth _ _ _ _ _ h
  | paren _ _ _ ih => exact ih
  | invisible _ ih => exact ih
  | reference _ _ _ _ ih => exact ih

-- The type without the brackets around it.
def bare : Ty → Ty
  | .paren elem _ _ => elem.bare
  | .invisible elem => elem.bare
  | t => t

-- How many shared references there are in front of a type, and what they lead to.
def peel : Ty → Nat × Ty
  | .paren elem _ _ => elem.peel
  | .invisible elem => elem.peel
  | .reference mark lifetime mutable elem =>
    if mutable.isEmpty then (elem.peel.1 + 1, elem.peel.2)
    else (0, .reference mark lifetime mutable elem)
  | t => (0, t)

-- Whether a type is an object of one trait, by the name of the trait, and of nothing else but
-- lifetimes.
def IsObjectOf (trait : String) : Ty → Prop
  | .traitObject _ bounds =>
    ∃ parens before path, (bounds.map (·.1)).filter (!·.isLifetime) = [.trait parens before path] ∧
      path.last.name.text = trait
  | _ => False

-- Whether a type is a path whose last segment has this name and no arguments.
def IsNamed (name : String) : Ty → Prop
  | .path none p => p.last.arguments.isEmpty = true ∧ p.last.name.text = name
  | _ => False

-- Whether a type is a shared reference to such an object.
def IsReferenceTo (trait : String) (t : Ty) : Prop :=
  ∃ mark lifetime elem, t.bare = .reference mark lifetime [] elem ∧ elem.bare.IsObjectOf trait

theorem mem_capabilities_ofTraits {traits : List String} {target : String} :
    target ∈ (NamedType.ofTraits traits).capabilities ↔ traits = [target] := by
  match traits with
  | [] => simp [NamedType.ofTraits]
  | [single] => simp [NamedType.ofTraits, eq_comm]
  | _ :: _ :: _ => simp [NamedType.ofTraits]

theorem mem_capabilities_describe_iff {t : Ty} (h : t.Shaped) {target : String} :
    target ∈ t.describe.capabilities ↔ t.peel.2.IsObjectOf target := by
  induction t with
  | paren elem _ _ ih => exact ih h
  | invisible elem ih => exact ih h
  | reference mark lifetime mutable elem ih =>
    cases hmut : mutable.isEmpty with
    | true => simpa [describe, peel, hmut] using ih h
    | false => simp [describe, peel, hmut, IsObjectOf]
  | traitObject dynWord bounds =>
    exact mem_capabilities_ofTraits.trans (Bound.traitNames_eq_singleton_iff h)
  | path qself p =>
    cases qself with
    | none => cases hargs : p.last.arguments.isEmpty <;> simp [describe, peel, hargs, IsObjectOf]
    | some q => simp [describe, peel, IsObjectOf]
  | unit start stop => simp [describe, peel, IsObjectOf]
  | other ts => simp [describe, peel, IsObjectOf]

theorem name_describe_eq_iff {t : Ty} (h : t.Shaped) {target : String}
    (htarget : isName target = true) :
    t.describe.name = target ↔ t.peel.1 = 0 ∧ t.peel.2.IsNamed target := by
  have hne : ∀ {text : String}, isName text = false → text ≠ target := by
    rintro text htext rfl
    simp [htext] at htarget
  induction t with
  | paren elem _ _ ih => exact ih h
  | invisible elem ih => exact ih h
  | reference mark lifetime mutable elem ih =>
    have hname : (describe (.reference mark lifetime mutable elem)).name ≠ target := by
      have hmark : '&' ∈ (describe (.reference mark lifetime mutable elem)).name.toList := by
        cases hmut : mutable.isEmpty <;> simp [describe, hmut]
      exact hne (not_isName_of_mem hmark (by decide))
    cases hmut : mutable.isEmpty <;> simp [peel, hmut, IsNamed, hname]
  | traitObject dynWord bounds =>
    have hgap : ' ' ∈ (describe (.traitObject dynWord bounds)).name.toList := by
      simp [describe, NamedType.ofTraits]
    have hname : (describe (.traitObject dynWord bounds)).name ≠ target :=
      hne (not_isName_of_mem hgap (by decide))
    simp [peel, IsNamed, hname]
  | path qself p =>
    cases qself with
    | none =>
      cases hargs : p.last.arguments.isEmpty with
      | true => simp [describe, peel, hargs, IsNamed]
      | false =>
        have hname : Tree.text p.tokens ≠ target := hne (Path.Shaped.not_isName h hargs)
        simp [describe, peel, hargs, IsNamed, hname]
    | some q =>
      have hname : Tree.text (q.tokens ++ p.tokens) ≠ target := hne h
      simp [describe, tokens, peel, IsNamed, hname]
  | unit start stop =>
    have hname : Tree.text (tokens (.unit start stop)) ≠ target :=
      hne (Tree.not_isName_of_marked (Tree.marked_group _ _ _ _))
    simp [describe, peel, IsNamed, hname]
  | other ts =>
    have hname : Tree.text ts ≠ target := hne h
    simp [describe, tokens, peel, IsNamed, hname]

-- What no reference is, a type is in its brackets exactly if no reference stands in front of it.
theorem bare_iff_peel {P : Ty → Prop}
    (hreference : ∀ mark lifetime mutable elem, ¬ P (.reference mark lifetime mutable elem)) {t : Ty} :
    P t.bare ↔ t.peel.1 = 0 ∧ P t.peel.2 := by
  induction t with
  | paren elem _ _ ih => exact ih
  | invisible elem ih => exact ih
  | reference mark lifetime mutable elem ih =>
    cases hmut : mutable.isEmpty <;> simp [bare, peel, hmut, hreference]
  | traitObject _ _ => simp [bare, peel]
  | path _ _ => simp [bare, peel]
  | unit _ _ => simp [bare, peel]
  | other _ => simp [bare, peel]

theorem isObjectOf_bare_iff {t : Ty} {trait : String} :
    t.bare.IsObjectOf trait ↔ t.peel.1 = 0 ∧ t.peel.2.IsObjectOf trait :=
  bare_iff_peel fun _ _ _ _ => id

theorem isReferenceTo_iff {t : Ty} {trait : String} :
    t.IsReferenceTo trait ↔ t.peel.1 = 1 ∧ t.peel.2.IsObjectOf trait := by
  induction t with
  | paren elem _ _ ih => exact ih
  | invisible elem ih => exact ih
  | reference mark lifetime mutable elem ih =>
    cases mutable with
    | nil => simp [IsReferenceTo, bare, peel, isObjectOf_bare_iff]
    | cons word rest => simp [IsReferenceTo, bare, peel]
  | traitObject _ _ => simp [IsReferenceTo, bare, peel]
  | path _ _ => simp [IsReferenceTo, bare, peel]
  | unit _ _ => simp [IsReferenceTo, bare, peel]
  | other _ => simp [IsReferenceTo, bare, peel]

-- A type is taken for an owner if it is an object of the trait behind any number of shared
-- references, or named like the trait. These are the references to an object of the trait, unless
-- there is not exactly one reference, or the type is the one that is named so.
theorem isAssignableTo_owner_iff {t : Ty} (h : t.Written) :
    (t.describe.isAssignableTo "LifecycleOwner" = true ↔
      t.peel.2.IsObjectOf "LifecycleOwner" ∨
        t.peel.1 = 0 ∧ t.peel.2.IsNamed "LifecycleOwner") ∧
    ((t.describe.isAssignableTo "LifecycleOwner" = true ↔ t.IsReferenceTo "LifecycleOwner") ↔
      ¬ (t.peel.1 ≠ 1 ∧ t.peel.2.IsObjectOf "LifecycleOwner") ∧
        ¬ (t.peel.1 = 0 ∧ t.peel.2.IsNamed "LifecycleOwner")) := by
  have htaken : t.describe.isAssignableTo "LifecycleOwner" = true ↔
      t.peel.2.IsObjectOf "LifecycleOwner" ∨
        t.peel.1 = 0 ∧ t.peel.2.IsNamed "LifecycleOwner" := by
    rw [NamedType.isAssignableTo, Bool.or_eq_true, beq_iff_eq, decide_eq_true_iff, or_comm,
      mem_capabilities_describe_iff h.shaped, name_describe_eq_iff h.shaped (by decide)]
  refine ⟨htaken, ?_⟩
  rw [htaken, isReferenceTo_iff]
  have hone : t.peel.1 = 1 → t.peel.1 ≠ 0 := by omega
  tauto

-- The type that a text is.
def ofText? (text : String) : Option Ty :=
  (Grammar.parseText (fun g => Grammar.ty g true) text).toOption

theorem written_of_ofText? {text : String} {t : Ty} (h : ofText? text = some t) : t.Written := by
  have hparse := Fallible.toOption_eq_some_iff.1 h
  unfold Grammar.parseText at hparse
  split at hparse
  · rename_i trees _
    obtain ⟨c, hrun, -⟩ := all_eq_ok hparse
    have hlevel : ((Level.ofDepth (Level.depthBound (Tree.sizes trees) + 1)).ty true).run
        { trees } = .ok (t, c) := hrun
    exact .read hlevel
  · cases hparse

theorem isAssignableTo_owner_iff_lifetime :
    ∃ t, ofText? "&'a (dyn vigil_lifecycle::LifecycleOwner + 'a)" = some t ∧ t.Written ∧
      t.describe.isAssignableTo "LifecycleOwner" = true ∧ t.IsReferenceTo "LifecycleOwner" := by
  have hcheck : (ofText? "&'a (dyn vigil_lifecycle::LifecycleOwner + 'a)").any (fun t =>
      t.describe.isAssignableTo "LifecycleOwner" && decide (t.peel.1 = 1)) = true := by
    decide +kernel
  obtain ⟨t, ht, htaken, hone⟩ := by
    simpa only [Option.any_eq_true, Bool.and_eq_true_iff, decide_eq_true_iff] using hcheck
  have hwritten := written_of_ofText? ht
  obtain ⟨-, hiff⟩ := isAssignableTo_owner_iff hwritten
  have hzero : t.peel.1 ≠ 0 := by omega
  exact ⟨t, ht, hwritten, htaken, (hiff.2 ⟨fun h => h.1 hone, fun h => hzero h.1⟩).1 htaken⟩

-- A reference to a reference is taken for an owner as well.
theorem isAssignableTo_owner_of_two_references :
    ∃ t, ofText? "&&dyn LifecycleOwner" = some t ∧ t.Written ∧
      t.describe.isAssignableTo "LifecycleOwner" = true ∧ ¬ t.IsReferenceTo "LifecycleOwner" := by
  have hcheck : (ofText? "&&dyn LifecycleOwner").any (fun t =>
      t.describe.isAssignableTo "LifecycleOwner" && decide (t.peel.1 = 2)) = true := by
    decide +kernel
  obtain ⟨t, ht, htaken, htwo⟩ := by
    simpa only [Option.any_eq_true, Bool.and_eq_true_iff, decide_eq_true_iff] using hcheck
  refine ⟨t, ht, written_of_ofText? ht, htaken, fun h => ?_⟩
  have hone := (isReferenceTo_iff.1 h).1
  omega

end Ty

end Lifecycle
