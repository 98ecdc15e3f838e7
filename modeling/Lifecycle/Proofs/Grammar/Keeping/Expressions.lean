import Lifecycle.Grammar.Expr.Parser
import Lifecycle.Proofs.Grammar.Keeping.Patterns

namespace Lifecycle

open Std.Do Text Lifecycle.Tree Lifecycle.Parser

set_option mvcgen.warning false

def Expr.Kept (e : Expr) : Prop :=
  Legible e.tokens

theorem legible_point : Legible (Tree.operator {} ['.']) :=
  .punct (by decide) (by decide) (fun h => absurd h (by decide)) .nil

@[grind ←] theorem legible_withAttributes {attributes : List Tree} {e : Expr} (ha : Legible attributes)
    (he : Legible e.tokens) : Legible (e.withAttributes attributes).tokens :=
  ha.append he

namespace Grammar

variable {g : Level} [g.Keeps]

@[spec] theorem rangeEnd_spec (record : Bool) (c₀ : Cursor) :
    ⦃fun c => ⌜c = c₀⌝⦄ rangeEnd g record ⦃⇓? r c => ⌜Reads c₀ c (Legible r)⌝⦄ := by
  mvcgen [rangeEnd] with grind -ring -linarith

@[spec] theorem castEnd_spec (c₀ : Cursor) :
    ⦃fun c => ⌜c = c₀⌝⦄ castEnd g ⦃⇓? r c => ⌜Reads c₀ c (Legible r)⌝⦄ := by
  mvcgen [castEnd] with grind -ring -linarith

-- No infix operator has an apostrophe.
theorem quote_not_mem_infixOperator {trees : List Tree} {cs : List Char} {p : Nat}
    (h : infixOperator? trees = some (cs, p)) : '\x27' ∉ cs := by
  have hall : ∀ o ∈ infixOperators, '\x27' ∉ o.1 := by decide
  exact hall _ (List.mem_of_find?_eq_some h)

-- The division sign needs something after it, and has the operand there.
@[spec] theorem climbOnce_spec (record : Bool) (base : Nat) (left : Expr) (c₀ : Cursor) :
    ⦃fun c => ⌜c = c₀⌝⦄ climbOnce g record base left
    ⦃⇓? r c => ⌜MayRead c₀ c (left.Kept → ∀ e, r = some e → e.Kept)⌝⦄ := by
  mvcgen [climbOnce, op_spec_along, -op_spec]
  all_goals grind -ring -linarith [Expr.Kept, quote_not_mem_infixOperator]

theorem climb_spec (record : Bool) (base : Nat) (left : Expr) (c₀ : Cursor) :
    ⦃fun c => ⌜c = c₀⌝⦄ climb g record base left
    ⦃⇓? r c => ⌜MayRead c₀ c (Legible left.tokens → Legible r.tokens)⌝⦄ := by
  have hrepeat := fun step a => @repeating_spec Expr step Expr.Kept a
  mvcgen [climb, hrepeat] with grind -ring -linarith [Expr.Kept]

theorem operand_spec (record : Bool) (p : Nat) (c₀ : Cursor) :
    ⦃fun c => ⌜c = c₀⌝⦄ operand g record p ⦃⇓? r c => ⌜Reads c₀ c (Legible r.tokens)⌝⦄ := by
  have hrepeat := fun step a =>
    @repeating_spec (Expr × Bool) step (fun s => s.1.Kept) a
  mvcgen [operand, hrepeat] with grind -ring -linarith [Expr.Kept]

@[spec] theorem exprTokens_spec (record : Bool) (c₀ : Cursor) :
    ⦃fun c => ⌜c = c₀⌝⦄ exprTokens g record ⦃⇓? r c => ⌜Reads c₀ c (Legible r)⌝⦄ := by
  mvcgen [exprTokens] with grind -ring -linarith

@[spec] theorem exprList_spec (c₀ : Cursor) :
    ⦃fun c => ⌜c = c₀⌝⦄ exprList g ⦃⇓? r c => ⌜MayRead c₀ c (Legible r)⌝⦄ := by
  mvcgen [exprList] with grind -ring -linarith

@[spec] theorem plainBlock_spec (c₀ : Cursor) :
    ⦃fun c => ⌜c = c₀⌝⦄ plainBlock g ⦃⇓? r c => ⌜Reads c₀ c (Legible r)⌝⦄ := by
  mvcgen [plainBlock] with grind -ring -linarith

@[spec] theorem labelOpt_spec (c₀ : Cursor) :
    ⦃fun c => ⌜c = c₀⌝⦄ labelOpt ⦃⇓? r c => ⌜MayRead c₀ c (Legible r)⌝⦄ := by
  mvcgen [labelOpt] with grind -ring -linarith

@[spec] theorem fieldValue_spec (c₀ : Cursor) :
    ⦃fun c => ⌜c = c₀⌝⦄ fieldValue g ⦃⇓? r c => ⌜Reads c₀ c (Legible r)⌝⦄ := by
  mvcgen [fieldValue] with grind -ring -linarith

@[spec] theorem fieldValues_spec (c₀ : Cursor) :
    ⦃fun c => ⌜c = c₀⌝⦄ fieldValues g ⦃⇓? r c => ⌜MayRead c₀ c (Legible r)⌝⦄ := by
  have hrepeat := fun step a => @repeating_spec (List Tree × Bool) step (fun s => Legible s.1) a
  mvcgen [fieldValues, hrepeat] with grind -ring -linarith

@[spec] theorem exprFromPath_spec (record : Bool) (c₀ : Cursor) :
    ⦃fun c => ⌜c = c₀⌝⦄ exprFromPath g record ⦃⇓? r c => ⌜Reads c₀ c (Legible r.tokens)⌝⦄ := by
  mvcgen [exprFromPath] with grind -ring -linarith

@[spec] theorem exprFromParens_spec (c₀ : Cursor) :
    ⦃fun c => ⌜c = c₀⌝⦄ exprFromParens g ⦃⇓? r c => ⌜Reads c₀ c (Legible r.tokens)⌝⦄ := by
  have hinner := fun d p c₀ => @inGroup_spec (ExprForm × List Tree) d p (fun r => Legible r.2) c₀
  mvcgen [exprFromParens, hinner] with grind -ring -linarith

@[spec] theorem exprFromBrackets_spec (c₀ : Cursor) :
    ⦃fun c => ⌜c = c₀⌝⦄ exprFromBrackets g ⦃⇓? r c => ⌜Reads c₀ c (Legible r.tokens)⌝⦄ := by
  have hinner := fun d p c₀ => @inGroup_spec (ExprForm × List Tree) d p (fun r => Legible r.2) c₀
  mvcgen [exprFromBrackets, hinner] with grind -ring -linarith

@[spec] theorem closureParam_spec (c₀ : Cursor) :
    ⦃fun c => ⌜c = c₀⌝⦄ closureParam g ⦃⇓? r c => ⌜Reads c₀ c (Legible r)⌝⦄ := by
  mvcgen [closureParam] with grind -ring -linarith

@[spec] theorem closure_spec (record : Bool) (c₀ : Cursor) :
    ⦃fun c => ⌜c = c₀⌝⦄ closure g record ⦃⇓? r c => ⌜Reads c₀ c (Legible r.tokens)⌝⦄ := by
  mvcgen [closure] with grind -ring -linarith [-List.append_assoc]

@[spec] theorem letting_spec (record : Bool) (c₀ : Cursor) :
    ⦃fun c => ⌜c = c₀⌝⦄ letting g record ⦃⇓? r c => ⌜Reads c₀ c (Legible r.tokens)⌝⦄ := by
  mvcgen [letting] with grind -ring -linarith

-- The first branch is always read.
@[spec] theorem conditional_spec (c₀ : Cursor) :
    ⦃fun c => ⌜c = c₀⌝⦄ conditional g ⦃⇓? r c => ⌜Reads c₀ c (Legible r.tokens)⌝⦄ := by
  have hrepeat := fun step attributes c₁ => @repeating_first (List Tree × Bool) step
    (fun s c => Reads c₁ c (Legible attributes → Legible s.1)) (attributes, true) c₁
  mvcgen [conditional, hrepeat] with grind -ring -linarith

@[spec] theorem whileLoop_spec (c₀ : Cursor) :
    ⦃fun c => ⌜c = c₀⌝⦄ whileLoop g ⦃⇓? r c => ⌜Reads c₀ c (Legible r.tokens)⌝⦄ := by
  mvcgen [whileLoop] with grind -ring -linarith

@[spec] theorem forLoop_spec (c₀ : Cursor) :
    ⦃fun c => ⌜c = c₀⌝⦄ forLoop g ⦃⇓? r c => ⌜Reads c₀ c (Legible r.tokens)⌝⦄ := by
  mvcgen [forLoop] with grind -ring -linarith

@[spec] theorem endlessLoop_spec (c₀ : Cursor) :
    ⦃fun c => ⌜c = c₀⌝⦄ endlessLoop g ⦃⇓? r c => ⌜Reads c₀ c (Legible r.tokens)⌝⦄ := by
  mvcgen [endlessLoop] with grind -ring -linarith

@[spec] theorem arm_spec (c₀ : Cursor) :
    ⦃fun c => ⌜c = c₀⌝⦄ arm g ⦃⇓? r c => ⌜Reads c₀ c (Legible r)⌝⦄ := by
  mvcgen [arm] with grind -ring -linarith

@[spec] theorem matching_spec (c₀ : Cursor) :
    ⦃fun c => ⌜c = c₀⌝⦄ matching g ⦃⇓? r c => ⌜Reads c₀ c (Legible r.tokens)⌝⦄ := by
  mvcgen [matching] with grind -ring -linarith

@[spec] theorem wordBlock_spec (form : ExprForm) (w : String) {body : Parser (List Tree)}
    (c₀ : Cursor)
    (hbody : ∀ c₀, ⦃fun c => ⌜c = c₀⌝⦄ body ⦃⇓? r c => ⌜Reads c₀ c (Legible r)⌝⦄) :
    ⦃fun c => ⌜c = c₀⌝⦄ wordBlock form w body ⦃⇓? r c => ⌜Reads c₀ c (Legible r.tokens)⌝⦄ := by
  mvcgen [wordBlock, hbody] with grind -ring -linarith

@[spec] theorem blockExpr_spec (c₀ : Cursor) :
    ⦃fun c => ⌜c = c₀⌝⦄ blockExpr g ⦃⇓? r c => ⌜Reads c₀ c (Legible r.tokens)⌝⦄ := by
  mvcgen [blockExpr] with grind -ring -linarith

@[spec] theorem labelled_spec (c₀ : Cursor) :
    ⦃fun c => ⌜c = c₀⌝⦄ labelled g ⦃⇓? r c => ⌜Reads c₀ c (Legible r.tokens)⌝⦄ := by
  mvcgen [labelled] with grind -ring -linarith

@[spec] theorem jump_spec (form : ExprForm) (w : String) (c₀ : Cursor) :
    ⦃fun c => ⌜c = c₀⌝⦄ jump g form w ⦃⇓? r c => ⌜Reads c₀ c (Legible r.tokens)⌝⦄ := by
  mvcgen [jump] with grind -ring -linarith

@[spec] theorem breaking_spec (record : Bool) (c₀ : Cursor) :
    ⦃fun c => ⌜c = c₀⌝⦄ breaking g record ⦃⇓? r c => ⌜Reads c₀ c (Legible r.tokens)⌝⦄ := by
  mvcgen [breaking] with grind -ring -linarith

@[spec] theorem asyncBlock_spec (c₀ : Cursor) :
    ⦃fun c => ⌜c = c₀⌝⦄ asyncBlock g ⦃⇓? r c => ⌜Reads c₀ c (Legible r.tokens)⌝⦄ := by
  mvcgen [asyncBlock] with grind -ring -linarith

@[spec] theorem builtin_spec (c₀ : Cursor) :
    ⦃fun c => ⌜c = c₀⌝⦄ builtin ⦃⇓? r c => ⌜Reads c₀ c (Legible r.tokens)⌝⦄ := by
  mvcgen [builtin] with grind -ring -linarith

@[spec] theorem tailCall_spec (c₀ : Cursor) :
    ⦃fun c => ⌜c = c₀⌝⦄ tailCall g ⦃⇓? r c => ⌜Reads c₀ c (Legible r.tokens)⌝⦄ := by
  mvcgen [tailCall] with grind -ring -linarith

@[spec] theorem exprFromWord_spec (record : Bool) (w : String) (c₀ : Cursor) :
    ⦃fun c => ⌜c = c₀⌝⦄ exprFromWord g record w ⦃⇓? r c => ⌜Reads c₀ c (Legible r.tokens)⌝⦄ := by
  mvcgen [exprFromWord] with grind -ring -linarith

@[spec] theorem atom_spec (record : Bool) (c₀ : Cursor) :
    ⦃fun c => ⌜c = c₀⌝⦄ atom g record ⦃⇓? r c => ⌜Reads c₀ c (Legible r.tokens)⌝⦄ := by
  mvcgen [atom] with grind -ring -linarith

-- Things with points between them.
theorem legible_points {parts : List (List Tree)} (h : ∀ tokens ∈ parts, Legible tokens) :
    Legible ((Tree.operator {} ['.']).intercalate parts) := by
  induction parts with
  | nil => exact .nil
  | cons tokens parts ih =>
    obtain ⟨htokens, hparts⟩ := List.forall_mem_cons.1 h
    cases parts with
    | nil => simpa [List.intercalate] using htokens
    | cons more parts =>
      have hrest := (htokens.append legible_point).append (ih hparts)
      simpa [List.intercalate] using hrest

@[spec] theorem fractionIndices_spec (c₀ : Cursor) :
    ⦃fun c => ⌜c = c₀⌝⦄ fractionIndices
    ⦃⇓? r c => ⌜c₀.Upto c ∧ ∀ indices, r = some indices → Legible indices.1⌝⦄ := by
  have hstarts : ∀ text pos rest, StartsClosed (.literal text pos :: rest) :=
    fun _ _ _ => ⟨_, _, rfl, trivial⟩
  mvcgen [fractionIndices] with grind -ring -linarith [legible_points, legible_number]

@[spec] theorem memberSuffix_spec (e : Expr) (c₀ : Cursor) :
    ⦃fun c => ⌜c = c₀⌝⦄ memberSuffix g e ⦃⇓? r c => ⌜Reads c₀ c (e.Kept → r.Kept)⌝⦄ := by
  mvcgen [memberSuffix] with grind -ring -linarith [Expr.Kept, legible_point]

@[spec] theorem suffix_spec (e : Expr) (c₀ : Cursor) :
    ⦃fun c => ⌜c = c₀⌝⦄ suffix g e
    ⦃⇓? r c => ⌜MayRead c₀ c (e.Kept → ∀ e', r = some e' → e'.Kept)⌝⦄ := by
  mvcgen [suffix] with grind -ring -linarith [Expr.Kept]

@[spec] theorem suffixes_spec (e : Expr) (c₀ : Cursor) :
    ⦃fun c => ⌜c = c₀⌝⦄ suffixes g e ⦃⇓? r c => ⌜MayRead c₀ c (e.Kept → r.Kept)⌝⦄ := by
  have hrepeat := fun step a => @repeating_spec Expr step Expr.Kept a
  mvcgen [suffixes, hrepeat]

theorem unary_spec (record : Bool) (c₀ : Cursor) :
    ⦃fun c => ⌜c = c₀⌝⦄ unary g record ⦃⇓? r c => ⌜Reads c₀ c (Legible r.tokens)⌝⦄ := by
  mvcgen [unary] with grind -ring -linarith [Expr.Kept]

theorem expr_spec (record : Bool) (c₀ : Cursor) :
    ⦃fun c => ⌜c = c₀⌝⦄ expr g record ⦃⇓? r c => ⌜Reads c₀ c (Legible r.tokens)⌝⦄ := by
  mvcgen [expr] with grind -ring -linarith

@[spec] theorem earlyStart_spec (c₀ : Cursor) :
    ⦃fun c => ⌜c = c₀⌝⦄ earlyStart g ⦃⇓? r c => ⌜Reads c₀ c (Legible r.tokens)⌝⦄ := by
  mvcgen [earlyStart]

theorem early_spec (c₀ : Cursor) :
    ⦃fun c => ⌜c = c₀⌝⦄ early g ⦃⇓? r c => ⌜Reads c₀ c (Legible r.tokens)⌝⦄ := by
  mvcgen [early] with grind -ring -linarith [Expr.Kept]

end Grammar

end Lifecycle
