import Lifecycle.Grammar.Ty.Parser
import Lifecycle.Proofs.Grammar.Keeping.Paths

namespace Lifecycle

open Std.Do Text Lifecycle.Tree Lifecycle.Parser

set_option mvcgen.warning false

def Meta.Kept (m : Meta) : Prop :=
  Legible m.tokens

def Attribute.Kept (a : Attribute) : Prop :=
  Legible a.tokens

@[grind ←] theorem legible_attributes {attributes : List Attribute}
    (h : ∀ a ∈ attributes, a.Kept) : Legible (Attribute.listTokens attributes) := by
  induction attributes with
  | nil => exact .nil
  | cons a attributes ih =>
    obtain ⟨ha, hrest⟩ := List.forall_mem_cons.1 h
    exact Legible.append ha (ih hrest)

namespace Grammar

variable {g : Level} [g.Keeps]

@[spec] theorem metaValue_spec (c₀ : Cursor) :
    ⦃fun c => ⌜c = c₀⌝⦄ metaValue g ⦃⇓? r c => ⌜Reads c₀ c (Legible r.tokens)⌝⦄ := by
  mvcgen [metaValue] with grind -ring -linarith

@[spec] theorem metaAfter_spec (p : Path) (c₀ : Cursor) :
    ⦃fun c => ⌜c = c₀⌝⦄ metaAfter g p ⦃⇓? r c => ⌜MayRead c₀ c (p.Kept → r.Kept)⌝⦄ := by
  mvcgen [metaAfter] with grind -ring -linarith [Meta.Kept, Meta.tokens]

@[spec] theorem attributeContent_spec (c₀ : Cursor) :
    ⦃fun c => ⌜c = c₀⌝⦄ attributeContent g ⦃⇓? r c => ⌜Reads c₀ c r.Kept⌝⦄ := by
  mvcgen [attributeContent] with grind -ring -linarith

@[spec] theorem attributeWith_spec {mark : Parser (List Tree)} (c₀ : Cursor)
    (hmark : ∀ c₀, ⦃fun c => ⌜c = c₀⌝⦄ mark ⦃⇓? r c => ⌜MayRead c₀ c (Legible r)⌝⦄) :
    ⦃fun c => ⌜c = c₀⌝⦄ attributeWith g mark ⦃⇓? r c => ⌜Reads c₀ c r.Kept⌝⦄ := by
  have hcontent := fun d c₀ => @inGroup_spec Meta d (attributeContent g) Meta.Kept c₀
  mvcgen [attributeWith, hcontent, hmark] with grind -ring -linarith [Attribute.Kept, Attribute.tokens, Meta.Kept]

@[spec] theorem outerAttributes_spec (c₀ : Cursor) :
    ⦃fun c => ⌜c = c₀⌝⦄ outerAttributes g
    ⦃⇓? r c => ⌜MayRead c₀ c (∀ a ∈ r, a.Kept)⌝⦄ := by
  have hrepeat := fun step a =>
    @repeating_spec (List Attribute) step (fun done => ∀ a ∈ done, a.Kept) a
  mvcgen [outerAttributes, hrepeat] with grind -ring -linarith

@[spec] theorem innerAttributes_spec (c₀ : Cursor) :
    ⦃fun c => ⌜c = c₀⌝⦄ innerAttributes g
    ⦃⇓? r c => ⌜MayRead c₀ c (∀ a ∈ r, a.Kept)⌝⦄ := by
  have hrepeat := fun step a =>
    @repeating_spec (List Attribute) step (fun done => ∀ a ∈ done, a.Kept) a
  mvcgen [innerAttributes, hrepeat] with grind -ring -linarith

@[spec] theorem outerTokens_spec (c₀ : Cursor) :
    ⦃fun c => ⌜c = c₀⌝⦄ outerTokens g ⦃⇓? r c => ⌜MayRead c₀ c (Legible r)⌝⦄ := by
  mvcgen [outerTokens] with grind -ring -linarith

@[spec] theorem block_spec (c₀ : Cursor) :
    ⦃fun c => ⌜c = c₀⌝⦄ block g ⦃⇓? r c => ⌜Reads c₀ c (Legible r)⌝⦄ := by
  mvcgen [block] with grind -ring -linarith

@[spec] theorem boundLifetimes_spec (c₀ : Cursor) :
    ⦃fun c => ⌜c = c₀⌝⦄ boundLifetimes g ⦃⇓? r c => ⌜Reads c₀ c (Legible r)⌝⦄ := by
  mvcgen [boundLifetimes] with grind -ring -linarith

@[spec] theorem boundLifetimesOpt_spec (c₀ : Cursor) :
    ⦃fun c => ⌜c = c₀⌝⦄ boundLifetimesOpt g ⦃⇓? r c => ⌜MayRead c₀ c (Legible r)⌝⦄ := by
  mvcgen [boundLifetimesOpt] with grind -ring -linarith

@[spec] theorem captured_spec (c₀ : Cursor) :
    ⦃fun c => ⌜c = c₀⌝⦄ captured ⦃⇓? r c => ⌜MayRead c₀ c (∀ a, r = some a → Legible a.2)⌝⦄ := by
  mvcgen [captured] with grind -ring -linarith

@[spec] theorem captures_spec (c₀ : Cursor) :
    ⦃fun c => ⌜c = c₀⌝⦄ captures ⦃⇓? r c => ⌜Reads c₀ c (Legible r)⌝⦄ := by
  have hrepeat := fun step a =>
    @repeating_spec (List Argument × Bool) step (fun s => ∀ a ∈ s.1, a.Kept) a
  mvcgen [captures, hrepeat] with grind -ring -linarith [Argument.Kept, legible_ordered]

@[spec] theorem traitBound_spec (constant : Bool) (c₀ : Cursor) :
    ⦃fun c => ⌜c = c₀⌝⦄ traitBound g constant
    ⦃⇓? r c => ⌜Reads c₀ c (∀ b, r = some b → Legible b.1 ∧ b.2.Kept)⌝⦄ := by
  have hmark := fun d c₀ => @inGroup_spec (List Tree) d (word "const") Legible c₀
  mvcgen [traitBound, hmark] with grind -ring -linarith

@[spec] theorem bound_spec (captureAllowed constant : Bool) (c₀ : Cursor) :
    ⦃fun c => ⌜c = c₀⌝⦄ bound g captureAllowed constant
    ⦃⇓? r c => ⌜Reads c₀ c (Legible r.tokens)⌝⦄ := by
  have htrait := fun d c₀ => @inGroup_spec (Option (List Tree × Path)) d (traitBound g constant)
    (fun r => ∀ b, r = some b → Legible b.1 ∧ b.2.Kept) c₀
  mvcgen [bound, htrait] with grind -ring -linarith [Bound.tokens]

@[spec] theorem bounds_spec (plus captureAllowed constant : Bool) (c₀ : Cursor) :
    ⦃fun c => ⌜c = c₀⌝⦄ bounds g plus captureAllowed constant
    ⦃⇓? r c => ⌜MayRead c₀ c (AllKept Bound.Kept r) ∧ (r ≠ [] → c₀.Past c)⌝⦄ := by
  have hrepeat := fun step => @repeating_rule (List (Bound × List Tree) × Bool) step
    (fun s c => MayRead c₀ c (AllKept Bound.Kept s.1) ∧ (s.1 ≠ [] → c₀.Past c)) ([], true)
  mvcgen [bounds, hrepeat] with grind -ring -linarith [Bound.Kept]

@[spec] theorem objectBounds_spec (plus : Bool) (pos : Position) (c₀ : Cursor) :
    ⦃fun c => ⌜c = c₀⌝⦄ objectBounds g plus pos
    ⦃⇓? r c => ⌜Reads c₀ c (AllKept Bound.Kept r)⌝⦄ := by
  mvcgen [objectBounds] with grind -ring -linarith

-- Whether further bounds and the plus signs before them can be written.
def MoreKept (more : List (List Tree × Bound)) : Prop :=
  ∀ b ∈ more, Legible b.1 ∧ b.2.Kept

@[spec] theorem plusBounds_spec (c₀ : Cursor) :
    ⦃fun c => ⌜c = c₀⌝⦄ plusBounds g ⦃⇓? r c => ⌜MayRead c₀ c (MoreKept r)⌝⦄ := by
  have hrepeat := fun step a => @repeating_spec (List (List Tree × Bound)) step MoreKept a
  mvcgen [plusBounds, hrepeat] with grind -ring -linarith [MoreKept, Bound.Kept]

theorem MoreKept.withPlus {first : Bound} {more : List (List Tree × Bound)} (h : MoreKept more)
    (hfirst : first.Kept) : AllKept Bound.Kept (withPlus first more) := by
  induction more generalizing first with
  | nil => exact .cons hfirst .nil (allKept_nil _)
  | cons b more ih =>
    obtain ⟨hb, hmore⟩ := List.forall_mem_cons.1 h
    exact .cons hfirst hb.1 (ih hmore hb.2)

end Grammar

end Lifecycle
