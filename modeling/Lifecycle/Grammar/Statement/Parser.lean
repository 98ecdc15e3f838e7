import Lifecycle.Grammar.Expr.Parser
import Lifecycle.Grammar.Item.Parser

namespace Lifecycle.Grammar

open Lifecycle.Parser

-- How a `!` form that starts a statement is read.
inductive BangStatement where
  -- It declares a name.
  | item
  -- Its input stands in braces, and no suffix follows.
  | braces
  -- It is part of an expression, or there is none.
  | none

-- The kind of the `!` form after a path.
def bangStatement (ts : List Tree) : BangStatement :=
  let second := ts.drop 1
  let third := ts.drop 2
  if !isOp ['!'] ts then .none
  else if isIdent second || isWord "try" second then .item
  else if isGroup .brace second &&
      !((isOp ['.'] third && !isOp ['.', '.'] third) || isOp ['?'] third) then .braces
  else .none

-- Whether `static` starts an item here and not a closure.
def startsStaticItem : Look := fun ts =>
  isWord "static" ts && (isWord "mut" (ts.drop 1) || isIdent (ts.drop 1))

-- Whether `const` starts an item here and not an expression.
def startsConstItem : Look := fun ts =>
  let second := ts.drop 1
  isWord "const" ts &&
    !(isGroup .brace second || isWord "static" second ||
      (isWord "async" second && !isWordOf ["unsafe", "extern", "fn"] (ts.drop 2)) ||
      isWord "move" second || isOp ['|'] second)

-- Whether a statement is an item here.
def startsItem : Look := fun ts =>
  let second := ts.drop 1
  isWordOf ["pub", "extern", "use", "fn", "mod", "type", "struct", "enum", "trait", "impl",
    "macro"] ts ||
    (isWord "crate" ts && !isOp [':', ':'] second) || startsStaticItem ts || startsConstItem ts ||
    (isWord "unsafe" ts && !isGroup .brace second) ||
    (isWord "async" ts && isWordOf ["unsafe", "extern", "fn"] second) ||
    (isWord "union" ts && isIdent second) || (isWord "auto" ts && isWord "trait" second) ||
    (isWord "default" ts && isWordOf ["unsafe", "impl"] second)

-- A binding. Its value may be followed by `else` and a block, unless it ends in braces itself.
def localBinding (g : Level) : Parser (List Tree) := do
  let letWord ← word "let"
  let p := (← g.pattern).tokens
  let ty ← if ← peek (isOp [':']) then pure ((← op [':']) ++ (← g.ty true).tokens) else pure []
  let value ← if ← peek (isOp ['=']) then do
      let eq ← op ['=']
      let e ← exprTokens g true
      let endsInBraces := match e.getLast? with
        | some (.group .brace _ _ _) => true
        | _ => false
      if !endsInBraces && (← peek (isWord "else")) then
        pure (eq ++ e ++ (← word "else") ++ (← plainBlock g))
      else pure (eq ++ e)
    else pure []
  return letWord ++ p ++ ty ++ value ++ (← op [';'])

-- One statement, and whether it needs a semicolon before the next one.
def statement (g : Level) : Parser (List Tree × Bool) := do
  let start ← get
  let attributes ← outerAttributes g
  let tokens := Attribute.listTokens attributes
  let bang ← match ← attempt? plainPath with
    | some (_, ahead) => pure (bangStatement ahead.trees)
    | none => pure .none
  match bang with
  | .braces =>
    let (_, form) ← bangForm
    return (tokens ++ form ++ (← opOpt [';']), false)
  | .item => return (← itemAfter g start attributes, false)
  | .none =>
    if ← peek (isWord "let") then return (tokens ++ (← localBinding g), false)
    else if ← peek startsItem then return (← itemAfter g start attributes, false)
    else
      let e ← g.early
      let semicolon ← opOpt [';']
      return ((e.withAttributes tokens).tokens ++ semicolon, semicolon.isEmpty && !e.form.isStatement)

-- The semicolons that come next.
def semicolons : Parser (List Tree) :=
  repeating (fun done => do
    if ← peek (isOp [';']) then return some (done ++ (← op [';'])) else return none) []

def statements (g : Level) : Parser (List Tree) := do
  let (done, _) ← repeating (fun (done, more) => do
    if !more then return none
    let done := done ++ (← semicolons)
    if ← peek isEnd then return some (done, false)
    let (s, needsSemicolon) ← statement g
    if needsSemicolon && !(← peek isEnd) then
      failWith (.rule "unexpected token, expected `;`")
    return some (done ++ s, !(← peek isEnd))) (([] : List Tree), true)
  return done

end Lifecycle.Grammar
