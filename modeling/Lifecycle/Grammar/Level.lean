import Lifecycle.Grammar.Expr
import Lifecycle.Grammar.Parser
/-!
The constructs of the language contain one another. Each parser is written over a `Level` that
holds the parsers for the constructs inside it, so that no two parsers are defined by mutual
recursion; the whole grammar is the limit of its levels.
-/

namespace Lifecycle

-- What a reader of patterns has to know of a pattern besides its tokens.
inductive PatternForm where
  -- The pattern `..`.
  | rest
  -- A range with an end missing, and where its dots are.
  | openRange (pos : Text.Position)
  | plain

structure Pattern where
  form : PatternForm := .plain
  tokens : List Tree

-- The parsers for nested constructs.
structure Level where
  -- A type; `plus` allows further bounds after a plus sign.
  ty : (plus : Bool) → Parser Ty
  -- A bound; the flags allow captured parameters and constant traits.
  bound : (captures : Bool) → (constant : Bool) → Parser Bound
  -- An expression; `record` allows record literals.
  expr : (record : Bool) → Parser Expr
  -- An expression without infix operators.
  unary : (record : Bool) → Parser Expr
  -- The operators after an expression, down to a precedence.
  climb : (record : Bool) → Nat → Expr → Parser Expr
  -- The right operand of an operator of some precedence.
  operand : (record : Bool) → Nat → Parser Expr
  -- An expression that ends early after a block, as a statement or match arm does.
  early : Parser Expr
  statements : Parser (List Tree)
  -- A block, with inner attributes at its start.
  block : Parser (List Tree)
  -- A pattern without alternatives.
  pattern : Parser Pattern
  -- A pattern with alternatives, perhaps after a leading bar.
  patterns : Parser Pattern
  item : Parser (List Tree)
  -- The tree of an import; `root` allows names from the root inside its braces, and an import with
  -- such names has no tokens of its own.
  useTree : (root : Bool) → Parser (Option (List Tree))
  -- The fields of a record declaration, with their braces.
  fields : Parser (List Tree)

namespace Level

-- The level at which nothing more can be nested.
def bottom : Level :=
  let tooDeep {α : Type} : Parser α := Parser.failWith (.rule "nested too deeply")
  { ty := fun _ => tooDeep
    bound := fun _ _ => tooDeep
    expr := fun _ => tooDeep
    unary := fun _ => tooDeep
    climb := fun _ _ _ => tooDeep
    operand := fun _ _ => tooDeep
    early := tooDeep
    statements := tooDeep
    block := tooDeep
    pattern := tooDeep
    patterns := tooDeep
    item := tooDeep
    useTree := fun _ => tooDeep
    fields := tooDeep }

end Level

end Lifecycle
