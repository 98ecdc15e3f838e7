import Lifecycle.Grammar.Generics.Parser

namespace Lifecycle.Grammar

open Lifecycle.Parser

-- The least number that is too large for an index.
def indexBound : Nat := 4294967296

-- An index written as digits, in its canonical form, or a field name.
def member : Parser (Bool × List Tree) := do
  if ← peek isIdent then return (true, [.ident (← ident)])
  match literal? (← get).trees with
  | some (.int value suffix, n) =>
    let pos := Cursor.pos (← get)
    if !suffix.isEmpty then failWith (.rule "expected unsuffixed integer")
    else if n ≠ 1 then failWith (.rule "invalid digit found in string")
    else if indexBound ≤ value then failWith (.rule "number too large to fit in target type")
    else
      skip 1
      return (false, [.literal (toString value) pos])
  | _ => wanted ["identifier or integer"]

-- The dots of a range: whether they include the end, and their tokens. In a pattern, three dots
-- stand for `..=`.
def rangeDots (inPattern : Bool) : Parser (Bool × List Tree) := do
  let pos := Cursor.pos (← get)
  if ← peek (isOp ['.', '.', '=']) then return (true, ← op ['.', '.', '='])
  else if ← peek (isOp ['.', '.', '.']) then
    if inPattern then
      let _ ← op ['.', '.', '.']
      return (true, Tree.operator pos ['.', '.', '='])
    else wanted ["`..`", "`..=`"]
  else if ← peek (isOp ['.', '.']) then return (false, ← op ['.', '.'])
  else wanted ["`..`"]

-- Whether a range pattern has no upper bound here.
def endsRange : Look := fun ts =>
  isEnd ts || isOp ['|'] ts || isOp ['='] ts || (isOp [':'] ts && !isOp [':', ':'] ts) ||
    isOp [','] ts || isOp [';'] ts || isWord "if" ts

def rangeBound (g : Level) : Parser (Option (List Tree)) := do
  if ← peek endsRange then return none
  if ← peek isLiteral then return some (← literal).2
  if ← peek startsPathTy then
    let (qself, p) ← qualifiedPath g true
    return some ((qself.map (·.tokens)).getD [] ++ p.tokens)
  if ← peek (isWord "const") then return some ((← word "const") ++ (← block g))
  wanted ["literal", "identifier", "`::`", "`<`", "`self`", "`Self`", "`super`", "`crate`", "`const`"]

-- A range pattern after its lower bound.
def rangeAfter (g : Level) (lower : List Tree) : Parser Pattern := do
  let pos := Cursor.pos (← get)
  let (closed, dots) ← rangeDots true
  match ← rangeBound g with
  | some upper =>
    let form := if lower.isEmpty then .openRange pos else .plain
    return { form, tokens := lower ++ dots ++ upper }
  | none =>
    if closed then wanted ["range upper bound"]
    else return { form := .openRange pos, tokens := lower ++ dots }

-- One field of a record pattern.
def fieldPattern (g : Level) : Parser (List Tree) := do
  let begin_ ← get
  let boxWord ← wordOpt "box"
  let mode := (← wordOpt "ref") ++ (← wordOpt "mut")
  let marked := !(boxWord ++ mode).isEmpty
  let (named, name) ← if marked then pure (true, [Tree.ident (← ident)]) else member
  if (!marked && (← peek (isOp [':']))) || !named then
    let colon ← op [':']
    return name ++ colon ++ (← g.patterns).tokens
  else if !boxWord.isEmpty then verbatimSince begin_
  else return mode ++ name

-- The fields of a record pattern.
def fieldPatterns (g : Level) : Parser (List Tree) := do
  let (done, _) ← repeating (fun (done, more) => do
    if !more || (← peek isEnd) then return none
    let attributes ← outerTokens g
    if ← peek (isOp ['.', '.']) then
      return some (done ++ attributes ++ (← op ['.', '.']), false)
    let field ← fieldPattern g
    if ← peek isEnd then return some (done ++ attributes ++ field, false)
    return some (done ++ attributes ++ field ++ (← op [',']), true)) (([] : List Tree), true)
  return done

-- A pattern that starts with a path.
def patternFromPath (g : Level) : Parser Pattern := do
  let (qself, p) ← qualifiedPath g true
  let start := (qself.map (·.tokens)).getD [] ++ p.tokens
  if qself.isNone && (← peek (isOp ['!'])) && !(← peek (isOp ['!', '='])) && p.isPlain then
    let bang ← op ['!']
    let (d, body, s, e) ← anyGroup
    return { tokens := start ++ bang ++ [.group d body s e] }
  if ← peek (isGroup .brace) then
    return { tokens := start ++ (← tokensIn .brace (fieldPatterns g)) }
  else if ← peek (isGroup .paren) then
    let elems := separatedTokens isEnd [','] do return (← g.patterns).tokens
    return { tokens := start ++ (← tokensIn .paren elems) }
  else if ← peek (isOp ['.', '.']) then rangeAfter g start
  else return { tokens := start }

-- A pattern that binds a name.
def namePattern (g : Level) : Parser Pattern := do
  let mode := (← wordOpt "ref") ++ (← wordOpt "mut")
  let name ← if ← peek (isWord "self") then anyIdent else ident
  let sub ← if ← peek (isOp ['@']) then
      pure ((← op ['@']) ++ (← g.pattern).tokens)
    else pure []
  return { tokens := mode ++ .ident name :: sub }

-- The elements between round or square brackets in a pattern.
def elementPatterns (g : Level) (bracketed : Bool) : Parser (List Tree) := do
  return joined (← separated isEnd [','] do
    let p ← g.patterns
    match p.form with
    | .openRange pos =>
      if bracketed then
        failAt pos (.rule "range pattern is not allowed unparenthesized inside slice pattern")
      else return p.tokens
    | _ => return p.tokens)

-- Whether a pattern starts with a path here.
def startsPathPattern : Look := fun ts =>
  let second := ts.drop 1
  (isIdent ts && (isOp [':', ':'] second || isOp ['!'] second || isGroup .brace second ||
      isGroup .paren second || isOp ['.', '.'] second)) ||
    (isWord "self" ts && isOp [':', ':'] second) || isOp [':', ':'] ts || isOp ['<'] ts ||
    isWordOf ["Self", "super", "crate"] ts

-- A pattern without alternatives.
def pattern (g : Level) : Parser Pattern := do
  let begin_ ← get
  if ← peek startsPathPattern then patternFromPath g
  else if ← peek (isWord "_") then return { tokens := ← word "_" }
  else if ← peek (isWord "box") then
    let _ ← word "box"
    let _ ← g.pattern
    return { tokens := ← verbatimSince begin_ }
  else if (← peek (isOp ['-'])) || (← peek isLiteral) || (← peek (isWord "const")) then
    match ← rangeBound g with
    | some lower =>
      if ← peek (isOp ['.', '.']) then rangeAfter g lower else return { tokens := lower }
    | none => wanted ["literal"]
  else if (← peek (isWordOf ["ref", "mut", "self"])) || (← peek isIdent) then namePattern g
  else if ← peek (isOp ['&']) then
    let start := (← op ['&']) ++ (← wordOpt "mut")
    return { tokens := start ++ (← g.pattern).tokens }
  else if ← peek (isGroup .paren) then
    return { tokens := ← tokensIn .paren (elementPatterns g false) }
  else if ← peek (isGroup .bracket) then
    return { tokens := ← tokensIn .bracket (elementPatterns g true) }
  else if (← peek (isOp ['.', '.'])) && !(← peek (isOp ['.', '.', '.'])) then
    let pos := Cursor.pos (← get)
    let (closed, dots) ← rangeDots true
    match ← rangeBound g with
    | some upper => return { form := .openRange pos, tokens := dots ++ upper }
    | none =>
      if closed then wanted ["range upper bound"] else return { form := .rest, tokens := dots }
  else wanted ["identifier", "`::`", "`<`", "`_`", "literal", "`const`", "`ref`", "`mut`", "`&`",
    "parentheses", "square brackets", "`..`"]

-- A bar between alternatives.
def isBar : Look := fun ts =>
  isOp ['|'] ts && !isOp ['|', '|'] ts && !isOp ['|', '='] ts

-- A pattern with alternatives, perhaps after a leading bar.
def patterns (g : Level) : Parser Pattern := do
  let leading ← opOpt ['|']
  let first ← g.pattern
  if leading.isEmpty && !(← peek isBar) then return first
  let tokens ← repeating (fun done => do
    if ← peek isBar then
      let bar ← op ['|']
      return some (done ++ bar ++ (← g.pattern).tokens)
    else return none) first.tokens
  return { tokens := leading ++ tokens }

end Lifecycle.Grammar
