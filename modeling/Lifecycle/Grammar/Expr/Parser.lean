import Lifecycle.Grammar.Pattern.Parser

namespace Lifecycle.Grammar

open Lifecycle.Parser Text

-- The precedences, from the loosest on.
def assignPrecedence : Nat := 1
def rangePrecedence : Nat := 2
def comparePrecedence : Nat := 6
def castPrecedence : Nat := 13

-- The infix operators with their precedences; one that another starts with comes after it.
def infixOperators : List (List Char × Nat) :=
  [(['+', '='], 1), (['-', '='], 1), (['*', '='], 1), (['/', '='], 1), (['%', '='], 1),
    (['^', '='], 1), (['&', '='], 1), (['|', '='], 1), (['<', '<', '='], 1), (['>', '>', '='], 1),
    (['&', '&'], 4), (['|', '|'], 3), (['<', '<'], 10), (['>', '>'], 10), (['=', '='], 6),
    (['<', '='], 6), (['!', '='], 6), (['>', '='], 6), (['+'], 11), (['-'], 11), (['*'], 12),
    (['/'], 12), (['%'], 12), (['^'], 8), (['&'], 9), (['|'], 7), (['<'], 6), (['>'], 6)]

-- The infix operator that comes next.
def infixOperator? (ts : List Tree) : Option (List Char × Nat) :=
  infixOperators.find? fun (cs, _) => isOp cs ts

-- Whether an equals sign that assigns comes next.
def isAssign : Look := fun ts => isOp ['='] ts && !isOp ['=', '>'] ts

-- The precedence of the operator that comes next, zero if there is none.
def nextPrecedence (ts : List Tree) : Nat :=
  match infixOperator? ts with
  | some (_, p) => p
  | none =>
    if isAssign ts then assignPrecedence
    else if isOp ['.', '.'] ts then rangePrecedence
    else if isWord "as" ts then castPrecedence
    else 0

-- Whether a range without an upper bound ends here.
def endsOpenRange (record : Bool) : Look := fun ts =>
  isEnd ts || isOp [','] ts || isOp [';'] ts || (isOp ['.'] ts && !isOp ['.', '.'] ts) ||
    isOp ['?'] ts || isOp ['=', '>'] ts || (!record && isGroup .brace ts) || isOp ['='] ts ||
    isOp ['+'] ts || isOp ['/'] ts || isOp ['%'] ts || isOp ['^'] ts || isOp ['>'] ts ||
    isOp ['<', '='] ts || isOp ['!', '='] ts || isOp ['-', '='] ts || isOp ['*', '='] ts ||
    isOp ['&', '='] ts || isOp ['|', '='] ts || isOp ['<', '<', '='] ts || isWord "as" ts

-- The dots of a range and its upper bound, if it has one.
def rangeEnd (g : Level) (record : Bool) : Parser (List Tree) := do
  let (closed, dots) ← rangeDots false
  if !closed && (← peek (endsOpenRange record)) then return dots
  else return dots ++ (← g.operand record rangePrecedence).tokens

-- What may not follow a cast.
def castFollower? (ts : List Tree) : Option String :=
  if isOp ['.'] ts && !isOp ['.', '.'] ts then
    if isWord "await" (ts.drop 1) then some "`.await`"
    else if isIdent (ts.drop 1) && (isGroup .paren (ts.drop 2) || isOp [':', ':'] (ts.drop 2)) then
      some "a method call"
    else some "a field access"
  else if isOp ['?'] ts then some "`?`"
  else if isGroup .bracket ts then some "indexing"
  else if isGroup .paren ts then some "a function call"
  else none

def castEnd (g : Level) : Parser (List Tree) := do
  let asWord ← word "as"
  let ty := (← g.ty false).tokens
  match castFollower? (← get).trees with
  | some follower => failWith (.rule ("casts cannot be followed by " ++ follower))
  | none => return asWord ++ ty

-- One operator after an expression, with its right operand.
def climbOnce (g : Level) (record : Bool) (base : Nat) (left : Expr) : Parser (Option Expr) := do
  if let .range := left.form then return none
  match infixOperator? (← get).trees with
  | some (cs, p) =>
    if p < base then return none
    let compares := p == comparePrecedence
    if compares then
      if let .binary true := left.form then
        failWith (.rule "comparison operators cannot be chained")
    let sign ← op cs
    let right ← g.operand record p
    return some { left with form := .binary compares, tokens := left.tokens ++ sign ++ right.tokens }
  | none =>
    if base ≤ assignPrecedence && (← peek isAssign) then
      let sign ← op ['=']
      let right ← g.operand record assignPrecedence
      return some { left with form := .assign, tokens := left.tokens ++ sign ++ right.tokens }
    else if base ≤ rangePrecedence && (← peek (isOp ['.', '.'])) then
      return some { form := .range, tokens := left.tokens ++ (← rangeEnd g record) }
    else if base ≤ castPrecedence && (← peek (isWord "as")) then
      return some { left with form := .cast, tokens := left.tokens ++ (← castEnd g) }
    else return none

-- The operators after an expression, down to a precedence.
def climb (g : Level) (record : Bool) (base : Nat) (left : Expr) : Parser Expr :=
  repeating (climbOnce g record base) left

-- The right operand of an operator of some precedence.
def operand (g : Level) (record : Bool) (p : Nat) : Parser Expr := do
  let first ← g.unary record
  let (e, _) ← repeating (fun (e, more) => do
    let before ← get
    let next := nextPrecedence before.trees
    if more && (p < next || (next == p && p == assignPrecedence)) then
      let e' ← g.climb record next e
      return some (e', (← get).trees.length != before.trees.length)
    else return none) (first, true)
  return e

def exprTokens (g : Level) (record : Bool) : Parser (List Tree) :=
  return (← g.expr record).tokens

-- Expressions between round or square brackets.
def exprList (g : Level) : Parser (List Tree) :=
  separatedTokens isEnd [','] (exprTokens g true)

-- A block without attributes of its own.
def plainBlock (g : Level) : Parser (List Tree) := blockWith g (pure [])

-- The label of a loop, if there is one.
def labelOpt : Parser (List Tree) := do
  if ← peek isLifetime then return (← lifetime) ++ (← op [':']) else return []

-- One field of a record literal.
def fieldValue (g : Level) : Parser (List Tree) := do
  let attributes ← outerTokens g
  let (named, name) ← member
  if (← peek (isOp [':'])) || !named then
    let colon ← op [':']
    return attributes ++ name ++ colon ++ (← exprTokens g true)
  else return attributes ++ name

-- The fields of a record literal.
def fieldValues (g : Level) : Parser (List Tree) := do
  let (done, _) ← repeating (fun (done, more) => do
    if !more || (← peek isEnd) then return none
    if ← peek (isOp ['.', '.']) then
      let dots ← op ['.', '.']
      let base ← if ← peek isEnd then pure [] else exprTokens g true
      return some (done ++ dots ++ base, false)
    let field ← fieldValue g
    if ← peek isEnd then return some (done ++ field, false)
    return some (done ++ field ++ (← op [',']), true)) (([] : List Tree), true)
  return done

-- An expression that starts with a path.
def exprFromPath (g : Level) (record : Bool) : Parser Expr := do
  let (qself, p) ← qualifiedPath g true
  let start := (qself.map (·.tokens)).getD [] ++ p.tokens
  if qself.isNone && (← peek (isOp ['!'])) && !(← peek (isOp ['!', '='])) && p.isPlain then
    let bang ← op ['!']
    let (d, body, s, e) ← anyGroup
    return { form := .bang d, tokens := start ++ bang ++ [.group d body s e] }
  if record && (← peek (isGroup .brace)) then
    return { form := .record, tokens := start ++ (← tokensIn .brace (fieldValues g)) }
  return { form := .path qself p, tokens := start }

-- An expression in round brackets, or a tuple.
def exprFromParens (g : Level) : Parser Expr := do
  let inner ← inGroup .paren do
    if ← peek isEnd then return (ExprForm.tuple, [])
    let first ← exprTokens g true
    if ← peek isEnd then return (ExprForm.paren, first)
    let comma ← op [',']
    return (ExprForm.tuple, first ++ comma ++ (← exprList g))
  return { form := inner.value.1, tokens := [.group .paren inner.value.2 inner.start inner.stop] }

-- An array by its elements, or by one element and a length.
def exprFromBrackets (g : Level) : Parser Expr := do
  let inner ← inGroup .bracket do
    if ← peek isEnd then return (ExprForm.array, [])
    let first ← exprTokens g true
    if ← peek isEnd then return (ExprForm.array, first)
    if ← peek (isOp [',']) then
      let comma ← op [',']
      return (ExprForm.array, first ++ comma ++ (← exprList g))
    if ← peek (isOp [';']) then
      let semicolon ← op [';']
      return (ExprForm.repeating, first ++ semicolon ++ (← exprTokens g true))
    wanted ["`,` or `;`"]
  return { form := inner.value.1, tokens := [.group .bracket inner.value.2 inner.start inner.stop] }

def closureParam (g : Level) : Parser (List Tree) := do
  let attributes ← outerTokens g
  let p := (← g.pattern).tokens
  if ← peek (isOp [':']) then
    let colon ← op [':']
    return attributes ++ p ++ colon ++ (← g.ty true).tokens
  else return attributes ++ p

def closure (g : Level) (record : Bool) : Parser Expr := do
  let start := (← boundLifetimesOpt g) ++ (← wordOpt "const") ++ (← wordOpt "static") ++
    (← wordOpt "async") ++ (← wordOpt "move")
  let bar ← op ['|']
  let params ← separatedTokens (isOp ['|']) [','] (closureParam g)
  let head := start ++ bar ++ params ++ (← op ['|'])
  if ← peek (isOp ['-', '>']) then
    let arrow ← op ['-', '>']
    let ty := (← g.ty true).tokens
    return { form := .closure, tokens := head ++ arrow ++ ty ++ (← plainBlock g) }
  else return { form := .closure, tokens := head ++ (← exprTokens g record) }

def letting (g : Level) (record : Bool) : Parser Expr := do
  let letWord ← word "let"
  let p := (← g.patterns).tokens
  let eq ← op ['=']
  let first ← g.unary record
  let value ← g.climb record comparePrecedence first
  return { form := .letting, tokens := letWord ++ p ++ eq ++ value.tokens }

-- A conditional, with all its further branches.
def conditional (g : Level) : Parser Expr := do
  let attributes ← outerTokens g
  let (tokens, _) ← repeating (fun (done, more) => do
    if !more then return none
    let ifWord ← word "if"
    let cond ← exprTokens g false
    let branch := done ++ ifWord ++ cond ++ (← plainBlock g)
    if ← peek (isWord "else") then
      let elseWord ← word "else"
      if ← peek (isWord "if") then return some (branch ++ elseWord, true)
      else if ← peek (isGroup .brace) then
        return some (branch ++ elseWord ++ (← plainBlock g), false)
      else wanted ["`if`", "curly braces"]
    else return some (branch, false)) (attributes, true)
  return { form := .ifThen, tokens }

def whileLoop (g : Level) : Parser Expr := do
  let start := (← outerTokens g) ++ (← labelOpt) ++ (← word "while")
  let cond ← exprTokens g false
  return { form := .whileLoop, tokens := start ++ cond ++ (← block g) }

-- A loop over the items of something.
def forLoop (g : Level) : Parser Expr := do
  let start := (← outerTokens g) ++ (← labelOpt) ++ (← word "for")
  let p := (← g.patterns).tokens
  let inWord ← word "in"
  let source ← exprTokens g false
  return { form := .forLoop, tokens := start ++ p ++ inWord ++ source ++ (← block g) }

def endlessLoop (g : Level) : Parser Expr := do
  let start := (← outerTokens g) ++ (← labelOpt) ++ (← word "loop")
  return { form := .loop, tokens := start ++ (← block g) }

def arm (g : Level) : Parser (List Tree) := do
  let attributes ← outerTokens g
  let p := (← g.patterns).tokens
  let guard_ ← if ← peek (isWord "if") then pure ((← word "if") ++ (← exprTokens g true))
    else pure []
  let arrow ← op ['=', '>']
  let body ← g.early
  let comma ← if !body.form.isBlockLike && !(← peek isEnd) then op [','] else opOpt [',']
  return attributes ++ p ++ guard_ ++ arrow ++ body.tokens ++ comma

def matching (g : Level) : Parser Expr := do
  let start := (← outerTokens g) ++ (← word "match")
  let subject ← exprTokens g false
  let arms ← tokensIn .brace do
    return Attribute.listTokens (← innerAttributes g) ++ (← filling (arm g))
  return { form := .matching, tokens := start ++ subject ++ arms }

-- A block with a word in front.
def wordBlock (form : ExprForm) (w : String) (body : Parser (List Tree)) : Parser Expr := do
  let start ← word w
  return { form, tokens := start ++ (← body) }

def blockExpr (g : Level) : Parser Expr := do
  let start := (← outerTokens g) ++ (← labelOpt)
  return { form := .block, tokens := start ++ (← block g) }

-- A loop or block after a label.
def labelled (g : Level) : Parser Expr := do
  let label ← labelOpt
  let e ← if ← peek (isWord "while") then whileLoop g
    else if ← peek (isWord "for") then forLoop g
    else if ← peek (isWord "loop") then endlessLoop g
    else if ← peek (isGroup .brace) then blockExpr g
    else wanted ["loop or block expression"]
  return { e with tokens := label ++ e.tokens }

-- Whether an operand may follow `break`, `return` or `yield` here.
def startsOperand : Look := fun ts =>
  isAnyIdent ts || isAnyGroup ts || isLiteral ts || (isOp ['!'] ts && !isOp ['!', '='] ts) ||
    (isOp ['-'] ts && !isOp ['-', '='] ts && !isOp ['-', '>'] ts) ||
    (isOp ['*'] ts && !isOp ['*', '='] ts) || (isOp ['|'] ts && !isOp ['|', '='] ts) ||
    (isOp ['&'] ts && !isOp ['&', '='] ts) || isOp ['.', '.'] ts ||
    (isOp ['<'] ts && !isOp ['<', '='] ts && !isOp ['<', '<', '='] ts) || isOp [':', ':'] ts ||
    isLifetime ts || isOp ['#'] ts

-- A jump with an operand, if one follows.
def jump (g : Level) (form : ExprForm) (w : String) : Parser Expr := do
  let start ← word w
  if ← peek startsOperand then return { form, tokens := start ++ (← exprTokens g true) }
  else return { form, tokens := start }

def breaking (g : Level) (record : Bool) : Parser Expr := do
  let start ← word "break"
  if (← peek isLifetime) && (← peekAt 1 (isOp [':'])) then
    let pos := Cursor.pos (← get)
    let _ ← g.expr true
    failAt pos (.rule "parentheses required")
  let label ← lifetimeOpt
  if (← peek startsOperand) && (record || !(← peek (isGroup .brace))) then
    return { form := .breaking, tokens := start ++ label ++ (← exprTokens g true) }
  else return { form := .breaking, tokens := start ++ label }

-- Whether generic parameters follow the next word.
def startsGenericsAfterWord : Look := fun ts => startsGenerics (ts.drop 1)

-- Whether a closure starts here.
def startsClosure : Look := fun ts =>
  let second := ts.drop 1
  isOp ['|'] ts || isWord "move" ts || (isWord "for" ts && startsGenericsAfterWord ts) ||
    (isWord "const" ts && !isGroup .brace second) || isWord "static" ts ||
    (isWord "async" ts && (isOp ['|'] second || isWord "move" second))

-- Whether a path starts here.
def startsPathExpr : Look := fun ts =>
  let second := ts.drop 1
  isIdent ts || isOp [':', ':'] ts || isOp ['<'] ts ||
    isWordOf ["self", "Self", "super", "crate"] ts ||
    (isWord "try" ts && (isOp ['!'] second || isOp [':', ':'] second))

-- Whether an asynchronous block starts here.
def startsAsyncBlock : Look := fun ts =>
  isWord "async" ts && (isGroup .brace (ts.drop 1) ||
    (isWord "move" (ts.drop 1) && isGroup .brace (ts.drop 2)))

def asyncBlock (g : Level) : Parser Expr := do
  let start := (← word "async") ++ (← wordOpt "move")
  return { form := .async, tokens := start ++ (← plainBlock g) }

-- A form that the compiler provides, kept as it was written.
def builtin : Parser Expr := do
  let begin_ ← get
  let _ ← word "builtin"
  let _ ← op ['#']
  let _ ← ident
  if ← peek (isGroup .paren) then
    skip 1
    return { form := .verbatim, tokens := ← verbatimSince begin_ }
  else wanted ["parentheses"]

-- A tail call, kept as it was written.
def tailCall (g : Level) : Parser Expr := do
  let begin_ ← get
  let _ ← word "become"
  let _ ← g.expr true
  return { form := .verbatim, tokens := ← verbatimSince begin_ }

-- An expression that starts with a word which is no path.
def exprFromWord (g : Level) (record : Bool) (w : String) : Parser Expr :=
  match w with
  | "break" => breaking g record
  | "continue" => do
    let start ← word "continue"
    return { form := .continuing, tokens := start ++ (← lifetimeOpt) }
  | "return" => jump g .returning "return"
  | "become" => tailCall g
  | "let" => letting g record
  | "if" => conditional g
  | "while" => whileLoop g
  | "for" => forLoop g
  | "loop" => endlessLoop g
  | "match" => matching g
  | "yield" => jump g .yielding "yield"
  | "unsafe" => wordBlock .unsafeBlock "unsafe" (block g)
  | "const" => wordBlock .constBlock "const" (block g)
  | "_" => return { form := .infer, tokens := ← word "_" }
  | _ => wanted ["an expression"]

-- An expression without operators or suffixes.
def atom (g : Level) (record : Bool) : Parser Expr := do
  if ← peek isLiteral then
    let (l, tokens) ← literal
    return { form := .literal l, tokens }
  else if ← peek startsAsyncBlock then asyncBlock g
  else if (← peek (isWord "try")) && (← peekAt 1 (isGroup .brace)) then
    wordBlock .tryBlock "try" (plainBlock g)
  else if ← peek startsClosure then closure g record
  else if (← peek (isWord "builtin")) && (← peekAt 1 (isOp ['#'])) then builtin
  else if ← peek startsPathExpr then exprFromPath g record
  else if ← peek (isGroup .paren) then exprFromParens g
  else if ← peek (isGroup .bracket) then exprFromBrackets g
  else if ← peek (isGroup .brace) then blockExpr g
  else if ← peek (isOp ['.', '.']) then
    return { form := .range, tokens := ← rangeEnd g record }
  else if ← peek isLifetime then labelled g
  else
    match (← get).trees with
    | .ident name :: _ => exprFromWord g record name.text
    | _ => wanted ["an expression"]

-- A whole number that is an index, or what is wrong with it.
def indexPart (cs : List Char) : Except String Nat :=
  match Literal.intParts cs with
  | some (v, []) => if v < indexBound then .ok v else .error "number too large to fit in target type"
  | some _ => .error "expected unsuffixed integer"
  | none => .error "expected integer literal"

-- The parts of a fraction that stands for indices: whole numbers between points. A point may come
-- after the last.
def indexParts (text : String) : Except String (List Nat) :=
  let cs := text.toList
  ((if cs.getLast? = some '.' then cs.dropLast else cs).splitOn '.').mapM indexPart

-- The indices that a fraction after a point stands for, and whether a point ends it.
def fractionIndices : Parser (Option (List Tree × Bool)) := do
  match (← get).trees with
  | .literal text pos :: _ =>
    if Literal.ofText text = .float then
      skip 1
      match indexParts text with
      | .ok vs =>
        let tokens := vs.map fun v => [Tree.literal (toString v) pos]
        return some ((Tree.operator {} ['.']).intercalate tokens, text.toList.getLast? == some '.')
      | .error rule => failAt pos (.rule rule)
    else return none
  | _ => return none

-- What follows a point: a field, a method call, an index or `await`.
def memberSuffix (g : Level) (e : Expr) : Parser Expr := do
  let dot ← op ['.']
  let (start, more) ← match ← fractionIndices with
    | some (indices, trailing) =>
      pure (e.tokens ++ dot ++ indices ++ (if trailing then Tree.operator {} ['.'] else []), trailing)
    | none => pure (e.tokens ++ dot, true)
  if !more then return { form := .field, tokens := start }
  if ← peek (isWord "await") then
    return { form := .await, tokens := start ++ (← word "await") }
  let (named, name) ← member
  let turbofish ← if named && (← peek (isOp [':', ':'])) then
      pure (← angleArguments g).tokens
    else pure []
  if !turbofish.isEmpty || (named && (← peek (isGroup .paren))) then
    let args ← tokensIn .paren (exprList g)
    return { form := .methodCall, tokens := start ++ name ++ turbofish ++ args }
  else return { form := .field, tokens := start ++ name }

def suffix (g : Level) (e : Expr) : Parser (Option Expr) := do
  let isRange := match e.form with | .range => true | _ => false
  if ← peek (isGroup .paren) then
    return some { form := .call, tokens := e.tokens ++ (← tokensIn .paren (exprList g)) }
  else if (← peek (isOp ['.'])) && !(← peek (isOp ['.', '.'])) && !isRange then
    return some (← memberSuffix g e)
  else if ← peek (isGroup .bracket) then
    return some { form := .index, tokens := e.tokens ++ (← tokensIn .bracket (exprTokens g true)) }
  else if (← peek (isOp ['?'])) && !isRange then
    return some { form := .trying, tokens := e.tokens ++ (← op ['?']) }
  else return none

def suffixes (g : Level) (e : Expr) : Parser Expr :=
  repeating (suffix g) e

-- An expression without infix operators.
def unary (g : Level) (record : Bool) : Parser Expr := do
  let begin_ ← get
  let attributes ← outerTokens g
  if ← peek (isOp ['&']) then
    let mark ← op ['&']
    let raw ← if (← peek (isWord "raw")) && (← peekAt 1 (isWordOf ["mut", "const"])) then word "raw"
      else pure []
    let mutable ← wordOpt "mut"
    let const ← if !raw.isEmpty && mutable.isEmpty then word "const" else pure []
    let e ← g.unary record
    return { form := if raw.isEmpty then .reference else .rawAddress
             tokens := attributes ++ mark ++ raw ++ mutable ++ const ++ e.tokens }
  else if ← peek fun ts => isOp ['*'] ts || isOp ['!'] ts || isOp ['-'] ts then
    let sign ← if ← peek (isOp ['*']) then op ['*']
      else if ← peek (isOp ['!']) then op ['!'] else op ['-']
    let e ← g.unary record
    return { form := .unary, tokens := attributes ++ sign ++ e.tokens }
  else
    let e ← atom g record
    let e ← suffixes g e
    match e.form with
    | .verbatim => return { e with tokens := ← verbatimSince begin_ }
    | .range =>
      if attributes.isEmpty then return e
      failAt (e.tokens.headD (.punct '.' false {})).pos
        (.rule "attributes are not allowed on range expressions starting with `..`")
    | _ => return { e with tokens := attributes ++ e.tokens }

def expr (g : Level) (record : Bool) : Parser Expr := do
  let first ← g.unary record
  g.climb record 0 first

-- The start of an expression that may end early.
def earlyStart (g : Level) : Parser Expr := do
  if ← peek (isWord "if") then conditional g
  else if ← peek (isWord "while") then whileLoop g
  else if ← peek fun ts => isWord "for" ts && !startsGenericsAfterWord ts then forLoop g
  else if ← peek (isWord "loop") then endlessLoop g
  else if ← peek (isWord "match") then matching g
  else if ← peek fun ts => isWord "try" ts && isGroup .brace (ts.drop 1) then
    wordBlock .tryBlock "try" (plainBlock g)
  else if ← peek (isWord "unsafe") then wordBlock .unsafeBlock "unsafe" (block g)
  else if ← peek fun ts => isWord "const" ts && isGroup .brace (ts.drop 1) then
    wordBlock .constBlock "const" (block g)
  else if ← peek (isGroup .brace) then blockExpr g
  else if ← peek isLifetime then labelled g
  else g.unary true

-- An expression that ends after a block, unless a point or question mark follows it.
def early (g : Level) : Parser Expr := do
  let attributes ← outerTokens g
  let e ← earlyStart g
  let e := e.withAttributes attributes
  if !e.form.isBlockLike then g.climb true 0 e
  else if ← peek fun ts => (isOp ['.'] ts && !isOp ['.', '.'] ts) || isOp ['?'] ts then
    g.climb true 0 (← suffixes g e)
  else return e

end Lifecycle.Grammar
