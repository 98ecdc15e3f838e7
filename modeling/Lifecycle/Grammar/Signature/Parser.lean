import Lifecycle.Grammar.Generics.Parser
import Lifecycle.Grammar.ImplBlock

namespace Lifecycle.Grammar

open Lifecycle.Parser

-- The restriction of a visibility. Other round brackets after `pub` do not belong to it.
def restriction : Parser (List Tree) := do
  match (← get).trees with
  | .group .paren body _ _ :: _ =>
    if isWordOf ["crate", "self", "super"] body && isEnd (body.drop 1) then
      tokensIn .paren do return [.ident (← anyIdent)]
    else if isWord "in" body then
      tokensIn .paren do return (← word "in") ++ (← plainPath).tokens
    else return []
  | _ => return []

def visibility : Parser (List Tree) := do
  if ← peek (isWord "pub") then return (← word "pub") ++ (← restriction) else return []

-- The trees after this word, if it comes first.
def afterWord (w : String) (ts : List Tree) : List Tree :=
  if isWord w ts then ts.drop 1 else ts

-- The trees after the choice of a calling convention, if it comes first.
def afterAbi (ts : List Tree) : List Tree :=
  if isWord "extern" ts then
    if isString (ts.drop 1) then ts.drop 2 else ts.drop 1
  else ts

-- Whether the signature of a function comes next; `safe` allows that word in place of `unsafe`.
def startsSignature (safe : Bool) : Look := fun ts =>
  let ts := afterWord "async" (afterWord "const" ts)
  let ts := if safe && isWord "safe" ts then ts.drop 1 else afterWord "unsafe" ts
  isWord "fn" (afterAbi ts)

-- The parameter that stands for the object a method is called on.
def selfParam (g : Level) (attributes : List Attribute) : Parser SelfParam := do
  let mark ← opOpt ['&']
  let lifetime ← if mark.isEmpty then pure [] else lifetimeOpt
  let mutable ← wordOpt "mut"
  let selfWord ← word "self"
  let annotation ← if mark.isEmpty && (← peek (isOp [':'])) then
      pure ((← op [':']) ++ (← g.ty true).tokens)
    else pure []
  return { attributes, mark, lifetime, mutable, selfWord, annotation }

-- A parameter, or the tokens of one that takes any number of values. A type with arguments may
-- stand without a name.
def param (g : Level) (attributes : List Attribute) : Parser (Param ⊕ List Tree) := do
  match ← attempt? (selfParam g attributes) with
  | some (p, rest) =>
    set rest
    return .inl (.receiver p)
  | none =>
    let before := Attribute.listTokens attributes
    if ← peek fun ts => isIdent ts && isOp ['<'] (ts.drop 1) then
      let pos := Cursor.pos (← get)
      let ty ← g.ty true
      return .inl (.typed (before ++ [.ident { text := "_", pos }, .punct ':' false pos]) ty)
    let p ← g.pattern
    let colon ← op [':']
    let before := before ++ p.tokens ++ colon
    if ← peek (isOp ['.', '.', '.']) then return .inr (before ++ (← op ['.', '.', '.']))
    return .inl (.typed before (← g.ty true))

-- A receiver is the first parameter.
def checkOrder (before : List (Param × List Tree)) : Param → Parser Unit
  | .receiver p => do
    let pos := (p.selfWord.headD (.ident { text := "self" })).pos
    if before.any (fun q => q.1.ty?.isNone) then
      failAt pos (.rule "unexpected second method receiver")
    if !before.isEmpty then failAt pos (.rule "unexpected method receiver")
  | .typed _ _ => return ()

-- A comma, unless nothing follows.
def commaUnlessEnd : Parser (List Tree) := do
  if ← peek isEnd then return [] else op [',']

-- The parameters of a function, and the tokens of the one that takes any number of values.
def params (g : Level) : Parser (List (Param × List Tree) × List Tree) := do
  let (done, variadic, _) ← repeating (fun (done, _, more) => do
    if !more || (← peek isEnd) then return none
    let attributes ← outerAttributes g
    if ← peek (isOp ['.', '.', '.']) then
      let dots ← op ['.', '.', '.']
      return some (done, Attribute.listTokens attributes ++ dots ++ (← commaUnlessEnd), false)
    match ← param g attributes with
    | .inr tokens => return some (done, tokens ++ (← commaUnlessEnd), false)
    | .inl p =>
      checkOrder done p
      let more := !(← peek isEnd)
      return some ((p, ← commaUnlessEnd) :: done, [], more))
    (([] : List (Param × List Tree)), ([] : List Tree), true)
  return (done.reverse, variadic)

def signature (g : Level) : Parser Signature := do
  let constWord ← wordOpt "const"
  let asyncWord ← wordOpt "async"
  let unsafeWord ← wordOpt "unsafe"
  let abi ← abiOpt
  let fnWord ← word "fn"
  let name ← ident
  let generics ← generics g
  let inputs ← inGroup .paren (params g)
  let output ← if ← peek (isOp ['-', '>']) then
      pure (some (← op ['-', '>'], ← g.ty true))
    else pure none
  let whereClause ← whereClause g
  return { constWord, asyncWord, unsafeWord, abi, fnWord, name, generics, start := inputs.start,
           stop := inputs.stop, params := inputs.value.1, variadic := inputs.value.2, output,
           whereClause }

end Lifecycle.Grammar
