import Lifecycle.Grammar.Statement.Parser

namespace Lifecycle

namespace Level

-- The parsers that read nested constructs at a given level.
def above (g : Level) : Level where
  ty := Grammar.ty g
  bound := Grammar.bound g
  expr := Grammar.expr g
  unary := Grammar.unary g
  climb := Grammar.climb g
  operand := Grammar.operand g
  early := Grammar.early g
  statements := Grammar.statements g
  block := Grammar.block g
  pattern := Grammar.pattern g
  patterns := Grammar.patterns g
  item := Grammar.item g
  useTree := Grammar.useTree g
  fields := Grammar.namedFields g

-- The grammar of texts that are nested to some depth.
def ofDepth : Nat → Level
  | 0 => bottom
  | depth + 1 => above (ofDepth depth)

-- A depth that no text of so many tokens reaches: only a few constructs start between two tokens
-- without a token of their own.
def depthBound (tokens : Nat) : Nat := 16 * (tokens + 1)

-- The grammar for these trees.
def ofTrees (trees : List Tree) : Level :=
  ofDepth (depthBound (Tree.sizes trees))

end Level

namespace Grammar

-- Reads all of a sequence of trees with the grammar.
def parseTrees {α : Type} (p : Level → Parser α) (trees : List Tree) (stop : Text.Position) :
    Except GrammarError α :=
  Parser.all (p (Level.ofTrees trees)) trees stop

-- Reads all of a text with the grammar.
def parseText {α : Type} (p : Level → Parser α) (text : String) : Except GrammarError α :=
  match Tree.read? text.toList with
  | some trees => parseTrees p trees {}
  | none => throw { complaint := .noTokens }

end Grammar

end Lifecycle
