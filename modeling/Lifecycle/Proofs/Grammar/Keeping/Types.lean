import Lifecycle.Proofs.Grammar.Keeping.Bounds

namespace Lifecycle

open Std.Do Text Lifecycle.Tree Lifecycle.Parser

set_option mvcgen.warning false

namespace Grammar

variable {g : Level} [g.Keeps]

@[spec] theorem abiOpt_spec (c₀ : Cursor) :
    ⦃fun c => ⌜c = c₀⌝⦄ abiOpt ⦃⇓? r c => ⌜MayRead c₀ c (Legible r)⌝⦄ := by
  mvcgen [abiOpt] with grind -ring -linarith

@[spec] theorem fnTyParam_spec (isFirst : Bool) (c₀ : Cursor) :
    ⦃fun c => ⌜c = c₀⌝⦄ fnTyParam g isFirst ⦃⇓? r c => ⌜Reads c₀ c (Legible r)⌝⦄ := by
  mvcgen [fnTyParam] with grind -ring -linarith

@[spec] theorem fnTyParams_spec (c₀ : Cursor) :
    ⦃fun c => ⌜c = c₀⌝⦄ fnTyParams g ⦃⇓? r c => ⌜MayRead c₀ c (Legible r)⌝⦄ := by
  have hrepeat := fun step a => @repeating_spec (List Tree × Bool) step (fun s => Legible s.1) a
  mvcgen [fnTyParams, hrepeat] with grind -ring -linarith

@[spec] theorem fnTy_spec (lifetimes : List Tree) (c₀ : Cursor) :
    ⦃fun c => ⌜c = c₀⌝⦄ fnTy g lifetimes
    ⦃⇓? r c => ⌜Reads c₀ c (Legible lifetimes → Legible r.tokens)⌝⦄ := by
  mvcgen [fnTy] with grind -ring -linarith [Ty.tokens]

-- Whether what stood between round brackets can be written.
def ParenTy.Kept : ParenTy → Prop
  | .unit => True
  | .object ty => Legible ty.tokens
  | .optional before p => Legible before ∧ p.Kept
  | .tuple tokens => Legible tokens
  | .single ty => Legible ty.tokens

@[spec] theorem parenTy_spec (c₀ : Cursor) :
    ⦃fun c => ⌜c = c₀⌝⦄ parenTy g ⦃⇓? r c => ⌜MayRead c₀ c r.Kept⌝⦄ := by
  mvcgen [parenTy] with grind -ring -linarith [ParenTy.Kept, Ty.tokens, legible_bounds]

-- The bound that a type in round brackets becomes has the type's own tokens inside.
theorem kept_of_boundOfParenTy {start stop : Position} {ty : Ty} {b : Bound}
    (h : boundOfParenTy start stop ty = some b) (hty : Legible ty.tokens) : b.Kept := by
  unfold boundOfParenTy at h
  split at h
  · obtain rfl := Option.some.inj h
    exact Legible.single_group hty
  · rename_i found
    have hfound : Legible found.tokens := by
      simpa [Ty.tokens, Bound.listTokens] using hty
    split at h <;> obtain rfl := Option.some.inj h
    · rename_i parens before p
      cases parens with
      | none => exact Legible.single_group hfound
      | some brackets =>
        cases hfound with
        | group hbody _ => exact Legible.single_group hbody
    · exact hfound
  · cases h

@[spec] theorem tyFromParens_spec (plus : Bool) (c₀ : Cursor) :
    ⦃fun c => ⌜c = c₀⌝⦄ tyFromParens g plus ⦃⇓? r c => ⌜Reads c₀ c (Legible r.tokens)⌝⦄ := by
  have hinner := fun d c₀ => @inGroup_spec ParenTy d (parenTy g) ParenTy.Kept c₀
  mvcgen [tyFromParens, hinner] with grind -ring -linarith [ParenTy.Kept, Ty.tokens, Bound.Kept,
    Bound.tokens, legible_bounds, kept_of_boundOfParenTy, MoreKept.withPlus]

@[spec] theorem bareBounds_spec (first : Bound) (plus : Bool) (c₀ : Cursor) :
    ⦃fun c => ⌜c = c₀⌝⦄ bareBounds g first plus
    ⦃⇓? r c => ⌜MayRead c₀ c (first.Kept → AllKept Bound.Kept r)⌝⦄ := by
  have hrepeat := fun step a => @repeating_spec (List (Bound × List Tree) × Option Bound) step
    (fun s => AllKept Bound.Kept s.1 ∧ ∀ b, s.2 = some b → b.Kept) a
  mvcgen [bareBounds, hrepeat] with grind -ring -linarith [Bound.Kept]

theorem legible_pathTy {qself : Option QualifiedSelf} {p : Path}
    (hqself : Legible ((qself.map (·.tokens)).getD [])) (hp : p.Kept) :
    Legible (Ty.path qself p).tokens := by
  cases qself with
  | none => exact hp.tokens
  | some q => exact Legible.append hqself hp.tokens

@[spec] theorem tyFromPath_spec (plus : Bool) (lifetimes : List Tree) (c₀ : Cursor) :
    ⦃fun c => ⌜c = c₀⌝⦄ tyFromPath g plus lifetimes
    ⦃⇓? r c => ⌜Reads c₀ c (Legible lifetimes → Legible r.tokens)⌝⦄ := by
  mvcgen [tyFromPath] with grind -ring -linarith [Ty.tokens, Bound.Kept, Bound.tokens,
    legible_bounds, legible_pathTy]

@[spec] theorem arrayTy_spec (c₀ : Cursor) :
    ⦃fun c => ⌜c = c₀⌝⦄ arrayTy g ⦃⇓? r c => ⌜Reads c₀ c (Legible r)⌝⦄ := by
  mvcgen [arrayTy] with grind -ring -linarith

@[spec] theorem implTy_spec (plus : Bool) (c₀ : Cursor) :
    ⦃fun c => ⌜c = c₀⌝⦄ implTy g plus ⦃⇓? r c => ⌜Reads c₀ c (Legible r.tokens)⌝⦄ := by
  mvcgen [implTy] with grind -ring -linarith [Ty.tokens, legible_bounds]

@[spec] theorem dynTy_spec (plus : Bool) (start c₀ : Cursor) :
    ⦃fun c => ⌜c = c₀⌝⦄ dynTy g plus start
    ⦃⇓? r c => ⌜Reads c₀ c (start.Upto c₀ → Legible start.trees → Legible r.tokens)⌝⦄ := by
  mvcgen [dynTy] with grind -ring -linarith [Ty.tokens, legible_bounds]

@[spec] theorem tyAfter_spec (plus : Bool) (start : Cursor) (lifetimes : List Tree)
    (starts : List String) (c₀ : Cursor) :
    ⦃fun c => ⌜c = c₀⌝⦄ tyAfter g plus start lifetimes starts
    ⦃⇓? r c => ⌜Reads c₀ c (start.Upto c₀ → Legible start.trees → Legible lifetimes →
      Legible r.tokens)⌝⦄ := by
  mvcgen [tyAfter] with grind -ring -linarith [Ty.tokens, legible_bounds]

theorem ty_spec (plus : Bool) (c₀ : Cursor) :
    ⦃fun c => ⌜c = c₀⌝⦄ ty g plus ⦃⇓? r c => ⌜Reads c₀ c (Legible r.tokens)⌝⦄ := by
  mvcgen [ty] with grind -ring -linarith

end Grammar

end Lifecycle
