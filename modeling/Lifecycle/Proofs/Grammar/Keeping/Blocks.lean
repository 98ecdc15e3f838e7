import Lifecycle.Grammar.ImplBlock.Parser
import Lifecycle.Proofs.Grammar.Keeping.Patterns

namespace Lifecycle

open Std.Do Text Lifecycle.Tree Lifecycle.Parser

set_option mvcgen.warning false

theorem legible_filter {attributes : List Attribute} (h : ∀ a ∈ attributes, a.Kept)
    (p : Attribute → Bool) : Legible (Attribute.listTokens (attributes.filter p)) :=
  legible_attributes fun a ha => h a (List.mem_filter.1 ha).1

-- The attributes of a method stand at two places.
theorem legible_method {m : Method} (hattributes : ∀ a ∈ m.attributes, a.Kept)
    (hhead : Legible (m.visibility ++ m.defaultWord ++ m.signature.tokens))
    (hbody : Legible m.body) : Legible m.tokens := by
  have houter := (legible_filter hattributes (!·.isInner)).append hhead
  have hinner := (legible_filter hattributes (·.isInner)).append hbody
  simpa [Method.tokens, List.partition_eq_filter_filter, Function.comp_def] using
    houter.append (.single_group hinner)

def ImplItem.Kept (i : ImplItem) : Prop :=
  Legible i.tokens

theorem legible_implItems {items : List ImplItem} (h : ∀ i ∈ items, i.Kept) :
    Legible (items.flatMap (·.tokens)) := by
  induction items with
  | nil => exact .nil
  | cons i items ih =>
    obtain ⟨hi, hrest⟩ := List.forall_mem_cons.1 h
    exact Legible.append hi (ih hrest)

theorem legible_implBlock {b : ImplBlock} (hattributes : ∀ a ∈ b.attributes, a.Kept)
    (hstart : Legible (b.defaultWord ++ b.unsafeWord ++ b.implWord ++ b.generics.tokens))
    (htrait : ∀ t, b.trait = some t → Legible (t.negative ++ t.path.tokens ++ t.forWord))
    (hrest : Legible (b.selfTy.tokens ++ b.whereClause.tokens)) (hitems : ∀ i ∈ b.items, i.Kept) :
    Legible b.tokens := by
  have hhead := (legible_filter hattributes (!·.isInner)).append hstart
  have hbody := (legible_filter hattributes (·.isInner)).append (legible_implItems hitems)
  have hend := hrest.append (@Legible.single_group _ .brace b.start b.stop hbody)
  cases ht : b.trait with
  | none => simpa [ImplBlock.tokens, ImplBlock.header, ht] using hhead.append hend
  | some t =>
    simpa [ImplBlock.tokens, ImplBlock.header, ht] using (hhead.append (htrait t ht)).append hend

namespace Grammar

variable {g : Level} [g.Keeps]

@[spec] theorem constItem_spec (start : Cursor) (before : List Tree) (needsValue : Bool)
    (c₀ : Cursor) :
    ⦃fun c => ⌜c = c₀⌝⦄ constItem g start before needsValue
    ⦃⇓? r c => ⌜Reads c₀ c (start.Upto c₀ → Legible start.trees → Legible before → Legible r)⌝⦄ := by
  mvcgen [constItem] with grind -ring -linarith

@[spec] theorem boundsUpTo_spec (stop : Look) (c₀ : Cursor) :
    ⦃fun c => ⌜c = c₀⌝⦄ boundsUpTo g stop ⦃⇓? r c => ⌜MayRead c₀ c (Legible r)⌝⦄ := by
  have hitems := fun stop sep c₀ => @separated_spec Bound stop sep (g.bound false true) Bound.Kept c₀
  mvcgen [boundsUpTo, hitems] with grind -ring -linarith [Bound.Kept]

-- Whether the parts of a type declaration can be written.
structure TypeItem.Kept (t : TypeItem) : Prop where
  start : Legible t.start
  generics : Legible t.generics.tokens
  colon : Legible t.colon
  bounds : Legible t.bounds
  definition : Legible t.definition
  whereClause : Legible t.whereClause.tokens
  semicolon : Legible t.semicolon

@[spec] theorem typeItem_spec (early late : Bool) (c₀ : Cursor) :
    ⦃fun c => ⌜c = c₀⌝⦄ typeItem g early late ⦃⇓? r c => ⌜Reads c₀ c r.Kept⌝⦄ := by
  mvcgen [typeItem] with grind -ring -linarith [TypeItem.Kept, WhereClause.tokens]

@[spec] theorem bangForm_spec (c₀ : Cursor) :
    ⦃fun c => ⌜c = c₀⌝⦄ bangForm ⦃⇓? r c => ⌜Reads c₀ c (Legible r.2)⌝⦄ := by
  mvcgen [bangForm] with grind -ring -linarith

@[spec] theorem bangItem_spec (c₀ : Cursor) :
    ⦃fun c => ⌜c = c₀⌝⦄ bangItem ⦃⇓? r c => ⌜Reads c₀ c (Legible r)⌝⦄ := by
  mvcgen [bangItem] with grind -ring -linarith

@[spec] theorem method_spec (start : Cursor) (attributes : List Attribute) (c₀ : Cursor) :
    ⦃fun c => ⌜c = c₀⌝⦄ method g start attributes
    ⦃⇓? r c => ⌜Reads c₀ c (start.Upto c₀ → Legible start.trees → (∀ a ∈ attributes, a.Kept) →
      r.Kept)⌝⦄ := by
  have hbody := fun d p c₀ => @inGroup_spec (List Attribute × List Tree) d p
    (fun r => (∀ a ∈ r.1, a.Kept) ∧ Legible r.2) c₀
  mvcgen [method, hbody] with grind -ring -linarith [ImplItem.Kept, ImplItem.tokens, legible_method]

@[spec] theorem implType_spec (start : Cursor) (attributes : List Attribute) (c₀ : Cursor) :
    ⦃fun c => ⌜c = c₀⌝⦄ implType g start attributes
    ⦃⇓? r c => ⌜Reads c₀ c (start.Upto c₀ → Legible start.trees → (∀ a ∈ attributes, a.Kept) →
      r.Kept)⌝⦄ := by
  mvcgen [implType] with grind -ring -linarith [ImplItem.Kept, ImplItem.tokens, TypeItem.Kept]

@[spec] theorem implItem_spec (c₀ : Cursor) :
    ⦃fun c => ⌜c = c₀⌝⦄ implItem g ⦃⇓? r c => ⌜Reads c₀ c r.Kept⌝⦄ := by
  mvcgen [implItem] with grind -ring -linarith [ImplItem.Kept, ImplItem.tokens]

theorem tokens_uncovered (ty : Ty) : (uncovered ty).tokens = ty.tokens := by
  induction ty with
  | invisible elem ih => rw [uncovered, ih, Ty.tokens]
  | _ => rfl

@[spec] theorem implTrait_spec (negative : List Tree) (first : Ty) (c₀ : Cursor) :
    ⦃fun c => ⌜c = c₀⌝⦄ implTrait negative first
    ⦃⇓? r c => ⌜Reads c₀ c (Legible (negative ++ first.tokens) →
      ∀ t, r = some t → Legible (t.negative ++ t.path.tokens ++ t.forWord))⌝⦄ := by
  mvcgen [implTrait] with grind -ring -linarith [tokens_uncovered, Ty.tokens]

@[spec] theorem implBlockWith_spec (wide : Bool) (attributes : List Attribute) (c₀ : Cursor) :
    ⦃fun c => ⌜c = c₀⌝⦄ implBlockWith g wide attributes
    ⦃⇓? r c => ⌜Reads c₀ c ((∀ a ∈ attributes, a.Kept) → ∀ b, r = some b → Legible b.tokens)⌝⦄ := by
  have hbody := fun d p c₀ => @inGroup_spec (List Attribute × List ImplItem) d p
    (fun r => (∀ a ∈ r.1, a.Kept) ∧ ∀ i ∈ r.2, i.Kept) c₀
  have hrepeat := fun step a =>
    @repeating_spec (List ImplItem) step (fun done => ∀ i ∈ done, i.Kept) a
  unfold implBlockWith
  refine triple_join (Φ := fun r c => MayRead c₀ c (Legible r)) ?_ fun visibility c₁ h₁ => ?_
  · mvcgen with grind -ring -linarith
  refine triple_bind (wordOpt_spec "default" c₁) fun defaultWord c₂ h₂ => ?_
  refine triple_bind (wordOpt_spec "unsafe" c₂) fun unsafeWord c₃ h₃ => ?_
  refine triple_bind (word_spec "impl" c₃) fun implWord c₄ h₄ => ?_
  refine triple_look (by mvcgen) fun _ => ?_
  refine triple_join (Φ := fun r c => MayRead c₄ c (Legible r.tokens)) ?_ fun generics c₅ h₅ => ?_
  · mvcgen with grind -ring -linarith [Generics.tokens]
  have hstart : Reads c₀ c₅ (Legible (defaultWord ++ unsafeWord ++ implWord ++ generics.tokens)) := by
    grind -ring -linarith
  refine triple_look (by mvcgen) fun _ => triple_look (by mvcgen) fun _ => ?_
  refine triple_look (by mvcgen) fun _ => triple_optional ?_ ?_ fun c₆ h₆ => ?_
  · mvcgen with grind -ring -linarith
  · intro c
    mvcgen with grind -ring -linarith
  refine triple_bind (Φ := fun _ c => c = c₆) (by mvcgen) fun _ c₇ h₇ => ?_
  refine triple_look (by mvcgen) fun _ => triple_look (by mvcgen) fun _ => ?_
  refine triple_join (Φ := fun r c => MayRead c₇ c (Legible r)) ?_ fun negative c₈ h₈ => ?_
  · mvcgen with grind -ring -linarith
  clear h₁ h₂ h₃ h₄ h₅
  mvcgen [hbody, hrepeat] with grind -ring -linarith [legible_implBlock]

end Grammar

end Lifecycle
