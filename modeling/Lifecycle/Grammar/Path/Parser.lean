import Lifecycle.Grammar.Level

namespace Lifecycle.Grammar

open Lifecycle.Parser

-- Words that are path segments although they are keywords.
def pathWords : List String := ["super", "self", "Self", "crate", "try"]

-- A result type, if there is one.
def resultTy (g : Level) (plus : Bool) : Parser (List Tree) := do
  if ← peek (isOp ['-', '>']) then
    return (← op ['-', '>']) ++ (← g.ty plus).tokens
  else return []

-- The contents of a block: what an inner attribute reader takes, and statements.
def blockWith (g : Level) (inner : Parser (List Tree)) : Parser (List Tree) :=
  tokensIn .brace do return (← inner) ++ (← g.statements)

-- A constant between angle brackets: a literal, a name or a block.
def constArgument (g : Level) : Parser (List Tree) := do
  if ← peek isLiteral then return (← literal).2
  if ← peek isIdent then return [.ident (← ident)]
  if ← peek (isGroup .brace) then g.block
  else failWith (.wanted [] (← get).trees.isEmpty)

-- Where a list of bounds in an argument ends.
def endsBounds : Look := fun ts => isOp [','] ts || isOp ['>'] ts

-- What stands after a type between angle brackets that may name an associated item.
def associated (g : Level) (s : Segment) : Parser (Option (List Tree)) := do
  match s.arguments with
  | .paren _ => return none
  | _ =>
    if ← peek (isOp ['=']) then
      let eq ← op ['=']
      let value ←
        if (← peek isLiteral) || (← peek (isGroup .brace)) then constArgument g
        else pure (← g.ty true).tokens
      return some (s.tokens ++ eq ++ value)
    else if ← peek (isOp [':']) then
      let colon ← op [':']
      let bounds ← separated endsBounds ['+'] (g.bound false true)
      return some (s.tokens ++ colon ++ Bound.listTokens bounds)
    else return none

-- The tokens of one argument between angle brackets.
def argument (g : Level) : Parser (Bool × List Tree) := do
  if (← peek isLifetime) && !(← peekAt 1 (isOp ['+'])) then
    return (true, ← lifetime)
  if (← peek isLiteral) || (← peek (isGroup .brace)) then
    return (false, ← constArgument g)
  let ty ← g.ty true
  match ty with
  | .path none { leading := [], first, rest := [] } =>
    match ← associated g first with
    | some tokens => return (false, tokens)
    | none => return (false, ty.tokens)
  | _ => return (false, ty.tokens)

-- Arguments between angle brackets, perhaps after `::`.
def angleArguments (g : Level) : Parser Arguments := do
  let turbofish ← opOpt [':', ':']
  let start ← op ['<']
  let items ← separated (isOp ['>']) [','] (argument g)
  let stop ← op ['>']
  return .angle turbofish start
    (items.map fun ((isLifetime, tokens), comma) => { isLifetime, tokens, comma }) stop

-- Arguments between round brackets, with a result type if there is one.
def parenArguments (g : Level) : Parser Arguments := do
  let inputs ← tokensIn .paren (separatedTokens isEnd [','] do return (← g.ty true).tokens)
  return .paren (inputs ++ (← resultTy g false))

def segment (g : Level) (inExpr : Bool) : Parser Segment := do
  if ← peek (isWordOf pathWords) then return { name := ← anyIdent }
  let name ← ident
  let angled := (← peek (isOp ['<'])) && !(← peek (isOp ['<', '=']))
  let turbofish := (← peek (isOp [':', ':'])) && (← peekAt 2 (isOp ['<']))
  if (!inExpr && angled) || turbofish then
    return { name, arguments := ← angleArguments g }
  else return { name }

-- Further segments of a path. Round brackets after `::` do not belong to it.
def moreSegments (g : Level) (inExpr : Bool) : Parser (List Segment) := do
  let segments ← repeating (fun done => do
    if (← peek (isOp [':', ':'])) && !(← peekAt 2 (isGroup .paren)) then
      let _ ← op [':', ':']
      return some ((← segment g inExpr) :: done)
    else return none) []
  return segments.reverse

def path (g : Level) (inExpr : Bool) : Parser Path := do
  let leading ← opOpt [':', ':']
  let first ← segment g inExpr
  return { leading, first, rest := ← moreSegments g inExpr }

-- A path, perhaps after a qualified self type.
def qualifiedPath (g : Level) (inExpr : Bool) : Parser (Option QualifiedSelf × Path) := do
  if ← peek (isOp ['<']) then
    let start ← op ['<']
    let ty ← g.ty true
    let trait ← if ← peek (isWord "as") then
        pure (some (← word "as", ← path g false))
      else pure none
    let stop := (← op ['>']) ++ (← op [':', ':'])
    let first ← segment g inExpr
    let rest ← repeating (fun done => do
      if ← peek (isOp [':', ':']) then
        let _ ← op [':', ':']
        return some ((← segment g inExpr) :: done)
      else return none) []
    return (some { start, ty := ty.tokens, trait, stop }, { first, rest := rest.reverse })
  else return (none, ← path g inExpr)

-- A path without arguments, whose segments `isSegment` tells.
def namesWith (isSegment : Look) (leading : List Tree) : Parser (Option Path × Bool) := do
  let (done, trailing) ← repeating (fun (done, more) => do
    if more && (← peek isSegment) then
      let name ← anyIdent
      if ← peek (isOp [':', ':']) then
        let _ ← op [':', ':']
        return some (name :: done, true)
      return some (name :: done, false)
    else return none) (([] : List Ident), true)
  match done.reverse with
  | [] => return (none, trailing)
  | name :: rest => return (some { leading, first := { name }, rest := rest.map ({ name := · }) }, trailing)

-- Whether a segment of a plain path comes next.
def isPlainSegment : Look := fun ts =>
  isIdent ts || isWordOf ["super", "self", "Self", "crate"] ts

-- A path without arguments.
def plainPath : Parser Path := do
  let leading ← opOpt [':', ':']
  match ← namesWith isPlainSegment leading with
  | (some p, false) => return p
  | (some _, true) => wanted ["path segment after `::`"]
  | (none, _) => do
    let _ ← ident
    wanted ["identifier"]

end Lifecycle.Grammar
