import Lifecycle.Grammar.Attribute
import Lifecycle.Grammar.Path.Parser

namespace Lifecycle.Grammar

open Lifecycle.Parser

-- The value after the equals sign of an attribute: a literal that nothing follows, or an
-- expression.
def metaValue (g : Level) : Parser Expr := do
  match literal? (← get).trees with
  | some (l, n) =>
    if (← get).trees.length = n then
      let (_, tokens) ← literal
      return { form := .literal l, tokens }
    else g.expr true
  | none =>
    if (← peek (isOp ['#'])) && (← peekAt 1 (isGroup .bracket)) then
      failWith (.rule "unexpected attribute inside of attribute")
    else g.expr true

-- What follows the path of an attribute.
def metaAfter (g : Level) (p : Path) : Parser Meta := do
  if ← peek isAnyGroup then
    let (d, body, start, stop) ← anyGroup
    return .list p d body start stop
  else if ← peek (isOp ['=']) then
    let eq ← op ['=']
    return .nameValue p eq (← metaValue g)
  else return .path p

def attributeContent (g : Level) : Parser Meta := do
  if ← peek (isWord "unsafe") then metaAfter g (Path.ofIdent (← anyIdent))
  else metaAfter g (← plainPath)

-- One attribute, of which `mark` reads the mark of an inner one.
def attributeWith (g : Level) (mark : Parser (List Tree)) : Parser Attribute := do
  let hash ← op ['#']
  let mark ← mark
  let content ← inGroup .bracket (attributeContent g)
  return { hash, mark, start := content.start, stop := content.stop, content := content.value }

-- The attributes in front of a construct.
def outerAttributes (g : Level) : Parser (List Attribute) := do
  let done ← repeating (fun done => do
    if ← peek (isOp ['#']) then return some ((← attributeWith g (pure [])) :: done)
    else return none) []
  return done.reverse

-- The attributes at the start of a body.
def innerAttributes (g : Level) : Parser (List Attribute) := do
  let done ← repeating (fun done => do
    if (← peek (isOp ['#'])) && (← peekAt 1 (isOp ['!'])) then
      return some ((← attributeWith g (op ['!'])) :: done)
    else return none) []
  return done.reverse

-- The tokens of the attributes in front of a construct.
def outerTokens (g : Level) : Parser (List Tree) :=
  return Attribute.listTokens (← outerAttributes g)

-- A block, with inner attributes at its start.
def block (g : Level) : Parser (List Tree) :=
  blockWith g do return Attribute.listTokens (← innerAttributes g)

end Lifecycle.Grammar
