import Lifecycle.Grammar.Signature.Parser

namespace Lifecycle.Grammar

open Lifecycle.Parser

-- A constant, after the tokens `before` that were read since `start`. Its tokens are kept as they
-- were written if it has generic parameters or no value.
def constItem (g : Level) (start : Cursor) (before : List Tree) (needsValue : Bool) :
    Parser (List Tree) := do
  let constWord ← word "const"
  let name ← if (← peek isIdent) || (← peek (isWord "_")) then anyIdent
    else wanted ["identifier", "`_`"]
  let params ← generics g
  let colon ← op [':']
  let ty := (← g.ty true).tokens
  let value ← if ← peek (isOp ['=']) then pure ((← op ['=']) ++ (← g.expr true).tokens)
    else pure []
  let whereClause ← whereClause g
  let semicolon ← op [';']
  if params.isWritten || whereClause.isWritten || (needsValue && value.isEmpty) then
    verbatimSince start
  else return before ++ constWord ++ [.ident name] ++ colon ++ ty ++ value ++ semicolon

-- A type declaration in its widest form.
structure TypeItem where
  start : List Tree
  generics : Generics
  colon : List Tree
  bounds : List Tree
  -- The equals sign and the definition.
  definition : List Tree
  whereClause : WhereClause
  semicolon : List Tree

-- Bounds up to `stop`, a plus sign between two of them.
def boundsUpTo (g : Level) (stop : Look) : Parser (List Tree) := do
  return Bound.listTokens (← separated stop ['+'] (g.bound false true))

-- Where the bounds of a type declaration end.
def endsTypeBounds : Look := fun ts => isWord "where" ts || isOp ['='] ts || isOp [';'] ts

-- A type declaration; `early` and `late` tell whether a where clause may stand in front of the
-- definition and after it.
def typeItem (g : Level) (early late : Bool) : Parser TypeItem := do
  let typeWord ← word "type"
  let name ← ident
  let generics ← generics g
  let colon ← opOpt [':']
  let bounds ← if colon.isEmpty then pure [] else boundsUpTo g endsTypeBounds
  let before ← if early then whereClause g else pure {}
  let definition ← if ← peek (isOp ['=']) then pure ((← op ['=']) ++ (← g.ty true).tokens)
    else pure []
  let after ← if late && !before.isWritten then whereClause g else pure before
  return { start := typeWord ++ [.ident name], generics, colon, bounds, definition,
           whereClause := after, semicolon := ← op [';'] }

-- A `!` form, and the brackets of its input.
def bangForm : Parser (Delimiter × List Tree) := do
  let p ← plainPath
  let bang ← op ['!']
  let (d, body, start, stop) ← anyGroup
  return (d, p.tokens ++ bang ++ [.group d body start stop])

-- A `!` form as an item: a semicolon follows it, unless its input stands in braces.
def bangItem : Parser (List Tree) := do
  let (d, tokens) ← bangForm
  if d = .brace then return tokens else return tokens ++ (← op [';'])

-- Whether a `!` form may start here.
def startsBang : Look := fun ts =>
  isIdent ts || isWordOf ["self", "super", "crate"] ts || isOp [':', ':'] ts

-- What a `!` form may start with.
def bangStarts : List String := ["identifier", "`self`", "`super`", "`crate`", "`::`"]

-- Whether the word `default` marks a declaration here.
def startsDefault : Look := fun ts => isWord "default" ts && !isOp ['!'] (ts.drop 1)

-- A method. One without a body is kept as it was written.
def method (g : Level) (start : Cursor) (attributes : List Attribute) : Parser ImplItem := do
  let visibility ← visibility
  let defaultWord ← wordOpt "default"
  let signature ← signature g
  if ← peek (isOp [';']) then
    let _ ← op [';']
    return .other (← verbatimSince start)
  let body ← inGroup .brace do
    let inner ← innerAttributes g
    return (inner, ← g.statements)
  return .method { attributes := attributes ++ body.value.1, visibility, defaultWord, signature,
                   body := body.value.2, start := body.start, stop := body.stop }

def implType (g : Level) (start : Cursor) (attributes : List Attribute) : Parser ImplItem := do
  let before := Attribute.listTokens attributes ++ (← visibility) ++ (← wordOpt "default")
  let t ← typeItem g false true
  if t.definition.isEmpty || !t.colon.isEmpty then return .other (← verbatimSince start)
  return .other (before ++ t.start ++ t.generics.tokens ++ t.definition ++ t.whereClause.tokens ++
    t.semicolon)

-- An item of an implementation block.
def implItem (g : Level) : Parser ImplItem := do
  let start ← get
  let attributes ← outerAttributes g
  let afterAttributes ← get
  let visibility ← visibility
  let hasDefault ← peek startsDefault
  let defaultWord ← if hasDefault then word "default" else pure []
  let bare := visibility.isEmpty && !hasDefault
  if ← peek (startsSignature false) then
    set afterAttributes
    method g start attributes
  else if ← peek (isWord "const") then
    let before := Attribute.listTokens attributes ++ visibility ++ defaultWord
    return .other (← constItem g start before true)
  else if ← peek (isWord "type") then
    set afterAttributes
    implType g start attributes
  else if bare && (← peek startsBang) then
    return .other (Attribute.listTokens attributes ++ (← bangItem))
  else
    wanted ((if hasDefault then [] else ["`default`"]) ++ ["`fn`", "`const`", "`type`"] ++
      (if bare then bangStarts else []))

-- The type that a type in invisible brackets stands for.
def uncovered : Ty → Ty
  | .invisible elem => uncovered elem
  | ty => ty

-- The trait of a block, given the type in front of `for`. Nothing if that is no path.
def implTrait (negative : List Tree) (first : Ty) : Parser (Option ImplTrait) := do
  let forWord ← word "for"
  match uncovered first with
  | .path none path => return some { negative, path, forWord }
  | _ => return none

-- An implementation block. In a statement, `wide` allows forms that are kept as they were written;
-- such a block has no value.
def implBlockWith (g : Level) (wide : Bool) (attributes : List Attribute) :
    Parser (Option ImplBlock) := do
  let visibility ← if wide then visibility else pure []
  let defaultWord ← wordOpt "default"
  let unsafeWord ← wordOpt "unsafe"
  let implWord ← word "impl"
  let generics ← if ← peek startsGenerics then generics g else pure {}
  let isConst := wide && ((← peek (isWord "const")) ||
    ((← peek (isOp ['?'])) && (← peekAt 1 (isWord "const"))))
  if isConst then
    let _ ← opOpt ['?']
    let _ ← word "const"
  let negativePos := Cursor.pos (← get)
  let negative ← if (← peek (isOp ['!'])) && !(← peekAt 1 (isGroup .brace)) then op ['!']
    else pure []
  let firstPos := Cursor.pos (← get)
  let first ← g.ty true
  let isFor ← peek (isWord "for")
  let trait ← if isFor then implTrait negative first
    else if negative.isEmpty then pure none
    else failAt negativePos (.rule "inherent impls cannot be negative")
  if isFor && trait.isNone && !wide then failAt firstPos (.rule "expected trait path")
  let selfTy ← if isFor then g.ty true else pure first
  let whereClause ← whereClause g
  let body ← inGroup .brace do
    let inner ← innerAttributes g
    let items ← repeating (fun done => do
      if ← peek isEnd then return none else return some ((← implItem g) :: done)) []
    return (inner, items.reverse)
  if !visibility.isEmpty || isConst || (isFor && trait.isNone) then return none
  return some { attributes := attributes ++ body.value.1, defaultWord, unsafeWord, implWord,
                generics, trait, selfTy, whereClause, start := body.start, stop := body.stop,
                items := body.value.2 }

def implBlock (g : Level) : Parser ImplBlock := do
  let attributes ← outerAttributes g
  match ← implBlockWith g false attributes with
  | some block => return block
  | none => wanted ["`impl`"]

end Lifecycle.Grammar
