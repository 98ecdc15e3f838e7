import Lifecycle.Grammar.Pattern.Parser
import Lifecycle.Proofs.Grammar.Keeping.Signatures

namespace Lifecycle

open Std.Do Text Lifecycle.Tree Lifecycle.Parser

set_option mvcgen.warning false

-- A number can be written.
theorem legible_number (n : Nat) (pos : Position) : Legible [.literal (toString n) pos] :=
  .literal (isLiteral_of_length? (Literal.length?_toString n)) .nil

-- The dots of a range, as they are written in a pattern.
theorem legible_closedDots (pos : Position) : Legible (Tree.operator pos ['.', '.', '=']) :=
  .punct (by decide) (by decide) (fun h => absurd h (by decide))
    (.punct (by decide) (by decide) (fun h => absurd h (by decide))
      (.punct (by decide) (by decide) (fun h => absurd h (by decide)) .nil))

-- A number comes first, or the minus sign before it.
theorem startsClosed_of_literal? {trees : List Tree} {l : Literal} {n : Nat}
    (h : literal? trees = some (l, n)) : StartsClosed trees := by
  unfold literal? at h
  split at h
  · exact ⟨_, _, rfl, trivial⟩
  · exact ⟨_, _, rfl, trivial⟩
  · exact ⟨_, _, rfl, by decide, fun h => absurd h (by decide)⟩
  · cases h

namespace Grammar

variable {g : Level} [g.Keeps]

@[spec] theorem member_spec (c₀ : Cursor) :
    ⦃fun c => ⌜c = c₀⌝⦄ member ⦃⇓? r c => ⌜Reads c₀ c (Legible r.2)⌝⦄ := by
  mvcgen [member] with grind -ring -linarith [startsClosed_of_literal?, legible_number]

@[spec] theorem rangeDots_spec (inPattern : Bool) (c₀ : Cursor) :
    ⦃fun c => ⌜c = c₀⌝⦄ rangeDots inPattern ⦃⇓? r c => ⌜Reads c₀ c (Legible r.2)⌝⦄ := by
  mvcgen [rangeDots] with grind -ring -linarith [legible_closedDots]

@[spec] theorem rangeBound_spec (c₀ : Cursor) :
    ⦃fun c => ⌜c = c₀⌝⦄ rangeBound g
    ⦃⇓? r c => ⌜c₀.Upto c ∧ ∀ tokens, r = some tokens → Reads c₀ c (Legible tokens)⌝⦄ := by
  mvcgen [rangeBound] with grind -ring -linarith

@[spec] theorem rangeAfter_spec (lower : List Tree) (c₀ : Cursor) :
    ⦃fun c => ⌜c = c₀⌝⦄ rangeAfter g lower
    ⦃⇓? r c => ⌜Reads c₀ c (Legible lower → Legible r.tokens)⌝⦄ := by
  mvcgen [rangeAfter] with grind -ring -linarith

@[spec] theorem fieldPattern_spec (c₀ : Cursor) :
    ⦃fun c => ⌜c = c₀⌝⦄ fieldPattern g ⦃⇓? r c => ⌜Reads c₀ c (Legible r)⌝⦄ := by
  mvcgen [fieldPattern] with grind -ring -linarith

@[spec] theorem fieldPatterns_spec (c₀ : Cursor) :
    ⦃fun c => ⌜c = c₀⌝⦄ fieldPatterns g ⦃⇓? r c => ⌜MayRead c₀ c (Legible r)⌝⦄ := by
  have hrepeat := fun step a => @repeating_spec (List Tree × Bool) step (fun s => Legible s.1) a
  mvcgen [fieldPatterns, hrepeat] with grind -ring -linarith

@[spec] theorem patternFromPath_spec (c₀ : Cursor) :
    ⦃fun c => ⌜c = c₀⌝⦄ patternFromPath g ⦃⇓? r c => ⌜Reads c₀ c (Legible r.tokens)⌝⦄ := by
  mvcgen [patternFromPath] with grind -ring -linarith

@[spec] theorem namePattern_spec (c₀ : Cursor) :
    ⦃fun c => ⌜c = c₀⌝⦄ namePattern g ⦃⇓? r c => ⌜Reads c₀ c (Legible r.tokens)⌝⦄ := by
  mvcgen [namePattern] with grind -ring -linarith

@[spec] theorem elementPatterns_spec (bracketed : Bool) (c₀ : Cursor) :
    ⦃fun c => ⌜c = c₀⌝⦄ elementPatterns g bracketed ⦃⇓? r c => ⌜MayRead c₀ c (Legible r)⌝⦄ := by
  have hitems := fun stop sep item c₀ => @separated_spec (List Tree) stop sep item Legible c₀
  mvcgen [elementPatterns, hitems] with grind -ring -linarith

@[spec] theorem pattern_spec (c₀ : Cursor) :
    ⦃fun c => ⌜c = c₀⌝⦄ pattern g ⦃⇓? r c => ⌜Reads c₀ c (Legible r.tokens)⌝⦄ := by
  mvcgen [pattern] with grind -ring -linarith

@[spec] theorem patterns_spec (c₀ : Cursor) :
    ⦃fun c => ⌜c = c₀⌝⦄ patterns g ⦃⇓? r c => ⌜Reads c₀ c (Legible r.tokens)⌝⦄ := by
  have hrepeat := fun step a => @repeating_spec (List Tree) step Legible a
  mvcgen [patterns, hrepeat] with grind -ring -linarith

end Grammar

end Lifecycle
