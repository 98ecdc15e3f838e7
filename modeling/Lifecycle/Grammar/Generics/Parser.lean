import Lifecycle.Grammar.Generics
import Lifecycle.Grammar.Ty.Parser

namespace Lifecycle.Grammar

open Lifecycle.Parser

-- Whether an opening bracket starts generic parameters and not a qualified path.
def startsGenerics : Look := fun ts =>
  let second := ts.drop 1
  let third := ts.drop 2
  isOp ['<'] ts && (isOp ['>'] second || isOp ['#'] second ||
    ((isLifetime second || isIdent second) && (isOp ['>'] third || isOp [','] third ||
      (isOp [':'] third && !isOp [':', ':'] third) || isOp ['='] third)) ||
    isWord "const" second)

-- Lifetime bounds up to `stop`.
def lifetimeBounds (stop : Look) : Parser (List Tree) := do
  return joined (← chained stop ['+'] lifetime)

-- Trait bounds of a parameter up to `stop`.
def paramBounds (g : Level) (stop : Look) : Parser (List Tree) := do
  return Bound.listTokens (← chained stop ['+'] (g.bound false true))

-- A colon and bounds; they are not printed if there is no bound.
def colonBounds (bounds : Parser (List Tree)) : Parser (List Tree) := do
  if ← peek (isOp [':']) then
    let colon ← op [':']
    let bs ← bounds
    return if bs.isEmpty then [] else colon ++ bs
  else return []

def genericParam (g : Level) : Parser (Bool × List Tree) := do
  let attributes ← outerTokens g
  if ← peek isLifetime then
    let name ← lifetime
    return (true, attributes ++ name ++ (← colonBounds (lifetimeBounds endsBounds)))
  else if ← peek isIdent then
    let name ← ident
    let bs ← colonBounds (paramBounds g fun ts => endsBounds ts || isOp ['='] ts)
    let value ← if ← peek (isOp ['=']) then
        pure ((← op ['=']) ++ (← g.ty true).tokens)
      else pure []
    return (false, attributes ++ .ident name :: bs ++ value)
  else if ← peek (isWord "const") then
    let start := (← word "const") ++ [.ident (← ident)] ++ (← op [':'])
    let ty := (← g.ty true).tokens
    let value ← if ← peek (isOp ['=']) then pure ((← op ['=']) ++ (← constArgument g))
      else pure []
    return (false, attributes ++ start ++ ty ++ value)
  else if ← peek (isWord "_") then
    return (false, attributes ++ [.ident (← anyIdent)])
  else wanted ["lifetime", "identifier", "`const`"]

-- Generic parameters, if there are any.
def generics (g : Level) : Parser Generics := do
  if ← peek (isOp ['<']) then
    let start ← op ['<']
    let params ← separated (isOp ['>']) [','] (genericParam g)
    let stop ← op ['>']
    return { start, stop, params := params.map fun ((isLifetime, tokens), comma) =>
      { isLifetime, tokens, comma } }
  else return {}

-- Where the bounds of a where clause end.
def endsPredicate : Look := fun ts =>
  isEnd ts || isGroup .brace ts || isOp [','] ts || isOp [';'] ts ||
    (isOp [':'] ts && !isOp [':', ':'] ts) || isOp ['='] ts

def predicate (g : Level) : Parser (List Tree) := do
  if (← peek isLifetime) && (← peekAt 1 (isOp [':'])) then
    let start := (← lifetime) ++ (← op [':'])
    return start ++ (← lifetimeBounds endsPredicate)
  else
    let lifetimes ← boundLifetimesOpt g
    let ty := (← g.ty true).tokens
    let colon ← op [':']
    return lifetimes ++ ty ++ colon ++ (← paramBounds g endsPredicate)

def whereClause (g : Level) : Parser WhereClause := do
  if ← peek (isWord "where") then
    let keyword ← word "where"
    if ← peek startsGenerics then
      failWith (.rule "generic parameters on `where` clauses are reserved for future use")
    return { keyword, predicates := joined (← chained endsPredicate [','] (predicate g)) }
  else return {}

end Lifecycle.Grammar
