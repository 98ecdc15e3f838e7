import Lifecycle.Grammar.Attribute.Parser

namespace Lifecycle.Grammar

open Lifecycle.Parser

-- Lifetimes that a `for` introduces.
def boundLifetimes (g : Level) : Parser (List Tree) := do
  let start := (← word "for") ++ (← op ['<'])
  let names ← separatedTokens (isOp ['>']) [','] do
    return (← outerTokens g) ++ (← lifetime)
  return start ++ names ++ (← op ['>'])

-- Lifetimes that a `for` introduces, if there is one.
def boundLifetimesOpt (g : Level) : Parser (List Tree) := do
  if ← peek (isWord "for") then boundLifetimes g else return []

-- One captured parameter; nothing at the closing bracket.
def captured : Parser (Option (Bool × List Tree)) := do
  if ← peek isLifetime then return some (true, ← lifetime)
  else if (← peek isIdent) || (← peek (isWord "Self")) then
    return some (false, [.ident (← anyIdent)])
  else if ← peek (isOp ['>']) then return none
  else wanted ["lifetime", "identifier", "`>`"]

-- The list of captured parameters after `use`.
def captures : Parser (List Tree) := do
  let start := (← word "use") ++ (← op ['<'])
  let (done, _) ← repeating (fun (done, more) => do
    if !more then return none
    match ← captured with
    | none => return none
    | some (isLifetime, tokens) =>
      if ← peek (isOp [',']) then
        return some (({ isLifetime, tokens, comma := ← op [','] } : Argument) :: done, true)
      else if ← peek (isOp ['>']) then
        return some (({ isLifetime, tokens, comma := [] } : Argument) :: done, false)
      else wanted ["`,`", "`>`"]) (([] : List Argument), true)
  return start ++ Argument.listTokens (Argument.ordered done.reverse) ++ (← op ['>'])

-- A trait with its modifiers; nothing if it is marked as constant.
def traitBound (g : Level) (constant : Bool) : Parser (Option (List Tree × Path)) := do
  let lifetimes ← boundLifetimesOpt g
  let mut isConst := false
  if ← peek (isGroup .bracket) then
    let mark ← inGroup .bracket (word "const")
    if !constant then failAt mark.start (.rule "`[const]` is not allowed here")
    isConst := true
  else if ← peek (isWord "const") then
    let pos := Cursor.pos (← get)
    let _ ← word "const"
    if !constant then failAt pos (.rule "`const` is not allowed here")
    isConst := true
  let modifierPos := Cursor.pos (← get)
  let modifier ← opOpt ['?']
  let lifetimes ← if lifetimes.isEmpty && !modifier.isEmpty then boundLifetimesOpt g
    else pure lifetimes
  let p ← path g false
  let takesParens := p.last.arguments.isEmpty && ((← peek (isGroup .paren)) ||
    ((← peek (isOp [':', ':'])) && (← peekAt 2 (isGroup .paren))))
  let p ← if takesParens then do
      let _ ← opOpt [':', ':']
      pure (p.withLastArguments (← parenArguments g))
    else pure p
  if !lifetimes.isEmpty && !modifier.isEmpty then
    failAt modifierPos
      (.rule "`for<...>` binder not allowed with `?` trait polarity modifier")
  return if isConst then none else some (modifier ++ lifetimes, p)

def bound (g : Level) (captureAllowed constant : Bool) : Parser Bound := do
  if ← peek isLifetime then return .lifetime (← lifetime)
  if ← peek (isWord "use") then
    let pos := Cursor.pos (← get)
    let tokens ← captures
    if captureAllowed then return .capture tokens
    failAt pos (.rule "`use<...>` precise capturing syntax is not allowed here")
  let begin_ ← get
  if ← peek (isGroup .paren) then
    let inner ← inGroup .paren (traitBound g constant)
    match inner.value with
    | some (before, p) => return .trait (some (inner.start, inner.stop)) before p
    | none => return .verbatim (← verbatimSince begin_)
  else
    match ← traitBound g constant with
    | some (before, p) => return .trait none before p
    | none => return .verbatim (← verbatimSince begin_)

-- Whether another bound may follow a plus sign here.
def startsBound (constant : Bool) : Look := fun ts =>
  isAnyIdent ts || isOp [':', ':'] ts || isOp ['?'] ts || isLifetime ts || isGroup .paren ts ||
    (constant && (isGroup .bracket ts || isWord "const" ts))

-- Bounds joined by plus signs, or just one if `plus` does not allow more.
def bounds (g : Level) (plus captureAllowed constant : Bool) :
    Parser (List (Bound × List Tree)) := do
  let (done, _) ← repeating (fun (done, more) => do
    if !more then return none
    let b ← bound g captureAllowed constant
    if plus && (← peek (isOp ['+'])) then
      let sign ← op ['+']
      return some ((b, sign) :: done, ← peek (startsBound constant))
    else return some ((b, []) :: done, false)) (([] : List (Bound × List Tree)), true)
  return done.reverse

-- Bounds of an object type, of which one at least must be a trait.
def objectBounds (g : Level) (plus : Bool) (pos : Text.Position) :
    Parser (List (Bound × List Tree)) := do
  let bs ← bounds g plus false false
  if bs.any (·.1.isTrait) then return bs
  failAt pos (.rule "at least one trait is required for an object type")

-- Further bounds, each after a plus sign.
def plusBounds (g : Level) : Parser (List (List Tree × Bound)) := do
  let done ← repeating (fun done => do
    if ← peek (isOp ['+']) then
      let sign ← op ['+']
      return some ((sign, ← bound g false false) :: done)
    else return none) []
  return done.reverse

-- Bounds after a first one, each with the plus sign after it.
def withPlus (first : Bound) : List (List Tree × Bound) → List (Bound × List Tree)
  | [] => [(first, [])]
  | (sign, b) :: rest => (first, sign) :: withPlus b rest

-- The interface of a foreign function, if there is one.
def abiOpt : Parser (List Tree) := do
  if ← peek (isWord "extern") then
    let start ← word "extern"
    if ← peek isString then return start ++ (← literal).2
    else return start
  else return []

-- A parameter of a function type without its attributes.
def fnTyParam (g : Level) (isFirst : Bool) : Parser (List Tree) := do
  let begin_ ← get
  let mutSelf := isFirst && (← peek (isWord "mut")) && (← peekAt 1 (isWord "self"))
  if mutSelf then skip 1
  let selfNext := isFirst && (← peek (isWord "self"))
  let named := ((← peek isIdent) || (← peek (isWord "_")) || selfNext) &&
    (← peekAt 1 (isOp [':'])) && !(← peekAt 1 (isOp [':', ':']))
  let name ← if named then pure (Tree.ident (← anyIdent) :: (← op [':'])) else pure []
  if isFirst && !(selfNext && named) && (← peek (isWord "mut")) && (← peekAt 1 (isWord "self")) then
    skip 2
    verbatimSince begin_
  else if mutSelf && !named then
    let _ ← word "self"
    verbatimSince begin_
  else
    let ty ← g.ty true
    if mutSelf then verbatimSince begin_ else return name ++ ty.tokens

-- Whether the parameters of a function type end with dots here.
def startsFnTyDots : Look := fun ts =>
  isOp ['.', '.', '.'] ts ||
    ((isIdent ts || isWord "_" ts) && isOp [':'] (ts.drop 1) && isOp ['.', '.', '.'] (ts.drop 2))

-- The parameters of a function type.
def fnTyParams (g : Level) : Parser (List Tree) := do
  let (done, _) ← repeating (fun (done, more) => do
    if !more || (← peek isEnd) then return none
    let attributes ← outerTokens g
    if ← peek startsFnTyDots then
      let name ← if (← peek isIdent) || (← peek (isWord "_")) then
          pure (Tree.ident (← anyIdent) :: (← op [':']))
        else pure []
      let dots ← op ['.', '.', '.']
      return some (done ++ attributes ++ name ++ dots ++ (← opOpt [',']), false)
    else
      let param ← fnTyParam g done.isEmpty
      if ← peek isEnd then return some (done ++ attributes ++ param, false)
      else return some (done ++ attributes ++ param ++ (← op [',']), true))
    (([] : List Tree), true)
  return done

def fnTy (g : Level) (lifetimes : List Tree) : Parser Ty := do
  let unsafeWord ← wordOpt "unsafe"
  let abi ← abiOpt
  let fnWord ← word "fn"
  let params ← tokensIn .paren (fnTyParams g)
  return .other (lifetimes ++ unsafeWord ++ abi ++ fnWord ++ params ++ (← resultTy g false))

-- What stands between round brackets in a type.
inductive ParenTy where
  | unit
  -- An object type that starts with a lifetime.
  | object (ty : Ty)
  -- A bound with a question mark.
  | optional (before : List Tree) (path : Path)
  | tuple (tokens : List Tree)
  | single (ty : Ty)

-- The contents of round brackets in a type.
def parenTy (g : Level) : Parser ParenTy := do
  if ← peek isEnd then return .unit
  if ← peek isLifetime then
    return .object (.traitObject [] (← objectBounds g true (Cursor.pos (← get))))
  if ← peek (isOp ['?']) then
    match ← traitBound g false with
    | some (before, p) => return .optional before p
    | none => wanted ["identifier"]
  let first ← g.ty true
  if ← peek (isOp [',']) then
    let comma ← op [',']
    let rest ← separatedTokens isEnd [','] do return (← g.ty true).tokens
    return .tuple (first.tokens ++ comma ++ rest)
  else return .single first

-- The bound that a type in round brackets is, if a plus sign follows it.
def boundOfParenTy (start stop : Text.Position) : Ty → Option Bound
  | .path none p => some (.trait (some (start, stop)) [] p)
  | .traitObject [] [(b, [])] =>
    match b with
    | .trait _ before p => some (.trait (some (start, stop)) before p)
    | b => some b
  | _ => none

-- A type that starts with round brackets.
def tyFromParens (g : Level) (plus : Bool) : Parser Ty := do
  let inner ← inGroup .paren (parenTy g)
  match inner.value with
  | .unit => return .unit inner.start inner.stop
  | .object ty => return .paren ty inner.start inner.stop
  | .optional before p =>
    return .traitObject [] (withPlus (.trait (some (inner.start, inner.stop)) before p)
      (← plusBounds g))
  | .tuple tokens => return .other [.group .paren tokens inner.start inner.stop]
  | .single ty =>
    if plus && (← peek (isOp ['+'])) then
      match boundOfParenTy inner.start inner.stop ty with
      | some first => return .traitObject [] (withPlus first (← plusBounds g))
      | none => return .paren ty inner.start inner.stop
    else return .paren ty inner.start inner.stop

-- The bounds of an object type without `dyn`, after its first trait.
def bareBounds (g : Level) (first : Bound) (plus : Bool) : Parser (List (Bound × List Tree)) := do
  if !plus then return [(first, [])]
  let (done, last) ← repeating (fun (done, last) => do
    match last with
    | none => return none
    | some b =>
      if ← peek (isOp ['+']) then
        let sign ← op ['+']
        if ← peek (startsBound false) then
          return some ((b, sign) :: done, some (← bound g false false))
        else return some ((b, sign) :: done, none)
      else return none) (([] : List (Bound × List Tree)), some first)
  return match last with
    | some b => (((b, []) : Bound × List Tree) :: done).reverse
    | none => done.reverse

-- A type that starts with a path.
def tyFromPath (g : Level) (plus : Bool) (lifetimes : List Tree) : Parser Ty := do
  let (qself, p) ← qualifiedPath g false
  if qself.isSome then return .path qself p
  if (← peek (isOp ['!'])) && !(← peek (isOp ['!', '='])) && p.isPlain then
    let bang ← op ['!']
    let (d, body, start, stop) ← anyGroup
    return .other (p.tokens ++ bang ++ [.group d body start stop])
  if !lifetimes.isEmpty || (plus && (← peek (isOp ['+']))) then
    return .traitObject [] (← bareBounds g (.trait none lifetimes p) plus)
  return .path none p

-- An array or slice type.
def arrayTy (g : Level) : Parser (List Tree) := do
  let elem := (← g.ty true).tokens
  if ← peek (isOp [';']) then
    let semicolon ← op [';']
    return elem ++ semicolon ++ (← g.expr true).tokens
  else return elem

-- What may follow the lifetimes that a `for` introduces in a type.
def afterFor : List String :=
  ["identifier", "`fn`", "`unsafe`", "`extern`", "`super`", "`self`", "`Self`", "`crate`"]

-- What a type may start with.
def tyStarts : List String :=
  ["`for`", "parentheses", "`fn`", "`unsafe`", "`extern`", "identifier", "`::`", "`<`", "`dyn`",
    "square brackets", "`*`", "`&`", "`!`", "`impl`", "`_`", "lifetime"]

-- Whether a type starts with a path here.
def startsPathTy : Look := fun ts =>
  isIdent ts || isWordOf ["super", "self", "Self", "crate"] ts || isOp [':', ':'] ts || isOp ['<'] ts

-- An `impl` type.
def implTy (g : Level) (plus : Bool) : Parser Ty := do
  let pos := Cursor.pos (← get)
  let implWord ← word "impl"
  let bs ← bounds g plus true true
  if bs.any (·.1.isTrait) then return .other (implWord ++ Bound.listTokens bs)
  failAt pos (.rule "at least one trait must be specified")

-- An object type that starts with `dyn`.
def dynTy (g : Level) (plus : Bool) (begin_ : Cursor) : Parser Ty := do
  let pos := Cursor.pos (← get)
  let dynWord ← word "dyn"
  let star ← opOpt ['*']
  let bs ← objectBounds g plus pos
  if star.isEmpty then return .traitObject dynWord bs
  else return .other (← verbatimSince begin_)

-- A type that does not start with `for`, after the lifetimes of one if there was one.
def tyAfter (g : Level) (plus : Bool) (begin_ : Cursor) (lifetimes : List Tree)
    (starts : List String) : Parser Ty := do
  if ← peek (isGroup .paren) then tyFromParens g plus
  else if ← peek (isWordOf ["fn", "unsafe", "extern"]) then fnTy g lifetimes
  else if ← peek startsPathTy then tyFromPath g plus lifetimes
  else if ← peek (isWord "dyn") then dynTy g plus begin_
  else if ← peek (isGroup .bracket) then return .other (← tokensIn .bracket (arrayTy g))
  else if ← peek (isOp ['*']) then
    let star ← op ['*']
    if ← peek (isWordOf ["const", "mut"]) then
      let qualifier := [Tree.ident (← anyIdent)]
      return .other (star ++ qualifier ++ (← g.ty false).tokens)
    else wanted ["`const`", "`mut`"]
  else if ← peek (isOp ['&']) then
    let mark ← op ['&']
    let lifetime ← lifetimeOpt
    let mutable ← wordOpt "mut"
    return .reference mark lifetime mutable (← g.ty false)
  else if (← peek (isOp ['!'])) && !(← peek (isOp ['='])) then return .other (← op ['!'])
  else if ← peek (isWord "impl") then implTy g plus
  else if ← peek (isWord "_") then return .other (← word "_")
  else if ← peek isLifetime then
    return .traitObject [] (← objectBounds g true (Cursor.pos (← get)))
  else wanted starts

-- A type; `plus` allows further bounds after a plus sign.
def ty (g : Level) (plus : Bool) : Parser Ty := do
  let begin_ ← get
  if ← peek (isWord "for") then
    let lifetimes ← boundLifetimes g
    if ← peek (isWord "dyn") then wanted afterFor
    if (← peek isIdent) ||
        (← peek (isWordOf ["fn", "unsafe", "extern", "super", "self", "Self", "crate"])) then
      tyAfter g plus begin_ lifetimes afterFor
    else wanted afterFor
  else tyAfter g plus begin_ [] tyStarts

end Lifecycle.Grammar
