import Lifecycle.Grammar.Whole
import Lifecycle.Proofs.Grammar.Keeping.Expressions
import Lifecycle.Proofs.Grammar.Keeping.Items

namespace Lifecycle

open Std.Do Text Lifecycle.Tree Lifecycle.Parser

set_option mvcgen.warning false

namespace Grammar

variable {g : Level} [g.Keeps]

@[spec] theorem localBinding_spec (c₀ : Cursor) :
    ⦃fun c => ⌜c = c₀⌝⦄ localBinding g ⦃⇓? r c => ⌜Reads c₀ c (Legible r)⌝⦄ := by
  mvcgen [localBinding] with grind -ring -linarith [-List.append_assoc]

@[spec] theorem attemptPath_spec (c₀ : Cursor) :
    ⦃fun c => ⌜c = c₀⌝⦄ attempt? plainPath ⦃⇓? _ c => ⌜c = c₀⌝⦄ := by
  have hattempt := attempt?_spec (p := plainPath) (Φ := fun _ _ _ => True) c₀ fun c =>
    triple_iff.2 fun _ _ _ => trivial
  mvcgen [hattempt] with grind -ring -linarith

@[spec] theorem statement_spec (c₀ : Cursor) :
    ⦃fun c => ⌜c = c₀⌝⦄ statement g ⦃⇓? r c => ⌜Reads c₀ c (Legible r.1)⌝⦄ := by
  mvcgen [statement] with grind -ring -linarith

@[spec] theorem semicolons_spec (c₀ : Cursor) :
    ⦃fun c => ⌜c = c₀⌝⦄ semicolons ⦃⇓? r c => ⌜MayRead c₀ c (Legible r)⌝⦄ := by
  have hrepeat := fun step a => @repeating_spec (List Tree) step Legible a
  mvcgen [semicolons, hrepeat] with grind -ring -linarith

theorem statements_spec (c₀ : Cursor) :
    ⦃fun c => ⌜c = c₀⌝⦄ statements g ⦃⇓? r c => ⌜MayRead c₀ c (Legible r)⌝⦄ := by
  have hrepeat := fun step a => @repeating_spec (List Tree × Bool) step (fun s => Legible s.1) a
  mvcgen [statements, hrepeat] with grind -ring -linarith

end Grammar

instance Level.keeps_above (g : Level) [g.Keeps] : g.above.Keeps where
  ty := Grammar.ty_spec
  bound := Grammar.bound_spec
  expr := Grammar.expr_spec
  unary := Grammar.unary_spec
  climb := Grammar.climb_spec
  operand := Grammar.operand_spec
  early := Grammar.early_spec
  statements := Grammar.statements_spec
  block := Grammar.block_spec
  pattern := Grammar.pattern_spec
  patterns := Grammar.patterns_spec
  item := Grammar.item_spec
  useTree := Grammar.useTree_spec
  fields := Grammar.namedFields_spec

-- Nothing is read where everything is nested too deeply.
instance Level.keeps_bottom : bottom.Keeps where
  ty _ _ := triple_iff.2 fun _ _ h => nomatch h
  bound _ _ _ := triple_iff.2 fun _ _ h => nomatch h
  expr _ _ := triple_iff.2 fun _ _ h => nomatch h
  unary _ _ := triple_iff.2 fun _ _ h => nomatch h
  climb _ _ _ _ := triple_iff.2 fun _ _ h => nomatch h
  operand _ _ _ := triple_iff.2 fun _ _ h => nomatch h
  early _ := triple_iff.2 fun _ _ h => nomatch h
  statements _ := triple_iff.2 fun _ _ h => nomatch h
  block _ := triple_iff.2 fun _ _ h => nomatch h
  pattern _ := triple_iff.2 fun _ _ h => nomatch h
  patterns _ := triple_iff.2 fun _ _ h => nomatch h
  item _ := triple_iff.2 fun _ _ h => nomatch h
  useTree _ _ := triple_iff.2 fun _ _ h => nomatch h
  fields _ := triple_iff.2 fun _ _ h => nomatch h

instance Level.keeps_ofDepth (depth : Nat) : (ofDepth depth).Keeps := by
  induction depth with
  | zero => exact keeps_bottom
  | succ depth ih => exact keeps_above (ofDepth depth)

instance Level.keeps_ofTrees (trees : List Tree) : (ofTrees trees).Keeps :=
  keeps_ofDepth _

end Lifecycle
