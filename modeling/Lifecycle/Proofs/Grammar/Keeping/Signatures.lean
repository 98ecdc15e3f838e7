import Lifecycle.Grammar.Signature.Parser
import Lifecycle.Proofs.Grammar.Keeping.Types

namespace Lifecycle

open Std.Do Text Lifecycle.Tree Lifecycle.Parser

set_option mvcgen.warning false

def SelfParam.Kept (p : SelfParam) : Prop :=
  Legible p.tokens

def Param.Kept (p : Param) : Prop :=
  Legible p.tokens

@[grind →] theorem legible_params {params : List (Param × List Tree)} (h : AllKept Param.Kept params) :
    Legible (params.flatMap fun x => x.1.tokens ++ x.2) := by
  induction params with
  | nil => exact .nil
  | cons p params ih =>
    obtain ⟨⟨hp, hcomma⟩, hparams⟩ := List.forall_mem_cons.1 h
    exact (Legible.append hp hcomma).append (ih hparams)

-- The name that a parameter without one is given.
theorem legible_unnamed (pos pos' : Position) :
    Legible [.ident { text := "_", pos }, .punct ':' false pos'] :=
  .ident (.inl (by rw [String.toList_ofList]; decide))
    (.punct (by decide) (by decide) (fun h => absurd h (by decide)) .nil)

theorem legible_paramTokens {s : Signature} (hparams : AllKept Param.Kept s.params)
    (hvariadic : Legible s.variadic) : Legible s.paramTokens := by
  have hcomma : ∀ needed : Bool, Legible (if needed then Tree.operator {} [','] else []) := by
    rintro (_ | _)
    · exact .nil
    · exact legible_comma
  exact ((legible_params hparams).append (hcomma _)).append hvariadic

theorem legible_signature {s : Signature} (hstart : Legible (s.constWord ++ s.asyncWord ++
      s.unsafeWord ++ s.abi ++ s.fnWord ++ [.ident s.name]))
    (hgenerics : Legible s.generics.tokens) (hparams : Legible s.paramTokens)
    (houtput : ∀ o, s.output = some o → Legible (o.1 ++ o.2.tokens))
    (hwhere : Legible s.whereClause.tokens) : Legible s.tokens := by
  refine (((hstart.append hgenerics).append (.single_group hparams)).append ?_).append hwhere
  split
  · exact houtput _ ‹_›
  · exact .nil

namespace Grammar

variable {g : Level} [g.Keeps]

@[spec] theorem lifetimeBounds_spec (stop : Look) (c₀ : Cursor) :
    ⦃fun c => ⌜c = c₀⌝⦄ lifetimeBounds stop ⦃⇓? r c => ⌜MayRead c₀ c (Legible r)⌝⦄ := by
  have hitems := fun stop sep c₀ => @chained_spec (List Tree) stop sep Parser.lifetime Legible c₀
  mvcgen [lifetimeBounds, hitems] with grind -ring -linarith

@[spec] theorem paramBounds_spec (stop : Look) (c₀ : Cursor) :
    ⦃fun c => ⌜c = c₀⌝⦄ paramBounds g stop ⦃⇓? r c => ⌜MayRead c₀ c (Legible r)⌝⦄ := by
  have hitems := fun stop sep c₀ => @chained_spec Bound stop sep (g.bound false true) Bound.Kept c₀
  mvcgen [paramBounds, hitems] with grind -ring -linarith [Bound.Kept]

@[spec] theorem colonBounds_spec {bounds : Parser (List Tree)} (c₀ : Cursor)
    (hbounds : ∀ c₀, ⦃fun c => ⌜c = c₀⌝⦄ bounds ⦃⇓? r c => ⌜MayRead c₀ c (Legible r)⌝⦄) :
    ⦃fun c => ⌜c = c₀⌝⦄ colonBounds bounds ⦃⇓? r c => ⌜MayRead c₀ c (Legible r)⌝⦄ := by
  mvcgen [colonBounds, hbounds] with grind -ring -linarith

@[spec] theorem genericParam_spec (c₀ : Cursor) :
    ⦃fun c => ⌜c = c₀⌝⦄ genericParam g ⦃⇓? r c => ⌜Reads c₀ c (Legible r.2)⌝⦄ := by
  mvcgen [genericParam] with grind -ring -linarith

@[spec] theorem generics_spec (c₀ : Cursor) :
    ⦃fun c => ⌜c = c₀⌝⦄ generics g ⦃⇓? r c => ⌜MayRead c₀ c (Legible r.tokens)⌝⦄ := by
  have hitems := fun stop sep c₀ =>
    @separated_spec (Bool × List Tree) stop sep (genericParam g) ArgumentKept c₀
  mvcgen [generics, hitems] with grind -ring -linarith [Generics.tokens, legible_items, ArgumentKept]

@[spec] theorem predicate_spec (c₀ : Cursor) :
    ⦃fun c => ⌜c = c₀⌝⦄ predicate g ⦃⇓? r c => ⌜Reads c₀ c (Legible r)⌝⦄ := by
  mvcgen [predicate] with grind -ring -linarith

@[spec] theorem whereClause_spec (c₀ : Cursor) :
    ⦃fun c => ⌜c = c₀⌝⦄ whereClause g ⦃⇓? r c => ⌜MayRead c₀ c (Legible r.tokens)⌝⦄ := by
  have hitems := fun stop sep c₀ => @chained_spec (List Tree) stop sep (predicate g) Legible c₀
  mvcgen [whereClause, hitems] with grind -ring -linarith [WhereClause.tokens]

@[spec] theorem restriction_spec (c₀ : Cursor) :
    ⦃fun c => ⌜c = c₀⌝⦄ restriction ⦃⇓? r c => ⌜MayRead c₀ c (Legible r)⌝⦄ := by
  mvcgen [restriction] with grind -ring -linarith

@[spec] theorem visibility_spec (c₀ : Cursor) :
    ⦃fun c => ⌜c = c₀⌝⦄ visibility ⦃⇓? r c => ⌜MayRead c₀ c (Legible r)⌝⦄ := by
  mvcgen [visibility] with grind -ring -linarith

@[spec] theorem selfParam_spec (attributes : List Attribute) (c₀ : Cursor) :
    ⦃fun c => ⌜c = c₀⌝⦄ selfParam g attributes
    ⦃⇓? r c => ⌜Reads c₀ c ((∀ a ∈ attributes, a.Kept) → r.Kept)⌝⦄ := by
  mvcgen [selfParam] with grind -ring -linarith [SelfParam.Kept, SelfParam.tokens]

@[spec] theorem param_spec (attributes : List Attribute) (c₀ : Cursor) :
    ⦃fun c => ⌜c = c₀⌝⦄ param g attributes
    ⦃⇓? r c => ⌜Reads c₀ c ((∀ a ∈ attributes, a.Kept) →
      (∀ p, r = .inl p → p.Kept) ∧ ∀ tokens, r = .inr tokens → Legible tokens)⌝⦄ := by
  have hattempt := fun c₀ => @attempt?_spec SelfParam (selfParam g attributes)
    (fun c r c' => Reads c c' ((∀ a ∈ attributes, a.Kept) → r.Kept)) c₀
  mvcgen [param, hattempt] with grind -ring -linarith [SelfParam.Kept, Param.Kept, Param.tokens,
    legible_unnamed]

@[spec] theorem checkOrder_spec (before : List (Param × List Tree)) (p : Param) (c₀ : Cursor) :
    ⦃fun c => ⌜c = c₀⌝⦄ checkOrder before p ⦃⇓? _ c => ⌜c = c₀⌝⦄ := by
  mvcgen [checkOrder] with grind -ring -linarith

@[spec] theorem commaUnlessEnd_spec (c₀ : Cursor) :
    ⦃fun c => ⌜c = c₀⌝⦄ commaUnlessEnd ⦃⇓? r c => ⌜MayRead c₀ c (Legible r)⌝⦄ := by
  mvcgen [commaUnlessEnd] with grind -ring -linarith

@[spec] theorem params_spec (c₀ : Cursor) :
    ⦃fun c => ⌜c = c₀⌝⦄ params g
    ⦃⇓? r c => ⌜MayRead c₀ c (AllKept Param.Kept r.1 ∧ Legible r.2)⌝⦄ := by
  have hrepeat := fun step a => @repeating_spec (List (Param × List Tree) × List Tree × Bool) step
    (fun s => AllKept Param.Kept s.1 ∧ Legible s.2.1) a
  mvcgen [params, hrepeat] with grind -ring -linarith

@[spec] theorem signature_spec (c₀ : Cursor) :
    ⦃fun c => ⌜c = c₀⌝⦄ signature g ⦃⇓? r c => ⌜Reads c₀ c (Legible r.tokens)⌝⦄ := by
  have hparams := fun d c₀ => @inGroup_spec (List (Param × List Tree) × List Tree) d (params g)
    (fun r => AllKept Param.Kept r.1 ∧ Legible r.2) c₀
  mvcgen [signature, hparams] with grind -ring -linarith [legible_signature, legible_paramTokens]

end Grammar

end Lifecycle
