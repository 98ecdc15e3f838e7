import Lifecycle.Grammar.ImplBlock.Parser

namespace Lifecycle.Grammar

open Lifecycle.Parser

-- The body of a function: its inner attributes and its statements.
def functionBody (g : Level) : Parser (List Tree × Text.Position × Text.Position) := do
  let body ← inGroup .brace do return Attribute.listTokens (← innerAttributes g) ++ (← g.statements)
  return (body.value, body.start, body.stop)

-- A function, after its attributes.
def functionItem (g : Level) (start : Cursor) (attributes : List Tree) : Parser (List Tree) := do
  let before := attributes ++ (← visibility)
  let s := (← signature g).tokens
  if ← peek (isOp [';']) then
    let _ ← op [';']
    verbatimSince start
  else return before ++ s ++ (← block g)

-- An import of a whole crate.
def externCrate (attributes : List Tree) : Parser (List Tree) := do
  let before := attributes ++ (← visibility) ++ (← word "extern") ++ (← word "crate")
  let name ← if ← peek (isWord "self") then anyIdent else ident
  let rename ← if ← peek (isWord "as") then do
      let asWord ← word "as"
      let newName ← if ← peek (isWord "_") then anyIdent else ident
      pure (asWord ++ [.ident newName])
    else pure []
  return before ++ [.ident name] ++ rename ++ (← op [';'])

-- A function of a foreign block.
def foreignFunction (g : Level) (start : Cursor) (attributes : List Tree) : Parser (List Tree) := do
  let before := attributes ++ (← visibility)
  let ts := (← get).trees
  let isSafe := isWord "safe" (afterWord "async" (afterWord "const" ts))
  let constWord ← wordOpt "const"
  let asyncWord ← wordOpt "async"
  if isSafe then skip 1
  let s := constWord ++ asyncWord ++ (← signature g).tokens
  if ← peek (isGroup .brace) then
    let _ ← functionBody g
    verbatimSince start
  else
    let semicolon ← op [';']
    if isSafe then verbatimSince start else return before ++ s ++ semicolon

-- A variable of a foreign block.
def foreignStatic (g : Level) (start : Cursor) (attributes : List Tree) : Parser (List Tree) := do
  let before := attributes ++ (← visibility)
  let marker ← if ← peek (isWord "safe") then word "safe" else wordOpt "unsafe"
  let head := (← word "static") ++ (← wordOpt "mut") ++ [.ident (← ident)] ++ (← op [':'])
  let ty := (← g.ty true).tokens
  let value ← if ← peek (isOp ['=']) then pure ((← op ['=']) ++ (← g.expr true).tokens)
    else pure []
  let semicolon ← op [';']
  if marker.isEmpty && value.isEmpty then return before ++ head ++ ty ++ semicolon
  else verbatimSince start

-- A type of a foreign block.
def foreignType (g : Level) (start : Cursor) (attributes : List Tree) : Parser (List Tree) := do
  let before := attributes ++ (← visibility)
  let t ← typeItem g true true
  if !t.colon.isEmpty || !t.definition.isEmpty then verbatimSince start
  else return before ++ t.start ++ t.generics.tokens ++ t.whereClause.tokens ++ t.semicolon

-- Whether a variable of a foreign block starts here.
def startsForeignStatic : Look := fun ts =>
  isWord "static" ts || (isWordOf ["unsafe", "safe"] ts && isWord "static" (ts.drop 1))

-- An item of a foreign block.
def foreignItem (g : Level) : Parser (List Tree) := do
  let start ← get
  let attributes ← outerTokens g
  let afterAttributes ← get
  let bare := (← visibility).isEmpty
  if ← peek (startsSignature true) then
    set afterAttributes
    foreignFunction g start attributes
  else if ← peek startsForeignStatic then
    set afterAttributes
    foreignStatic g start attributes
  else if ← peek (isWord "type") then
    set afterAttributes
    foreignType g start attributes
  else if bare && (← peek startsBang) then return attributes ++ (← bangItem)
  else wanted (["`fn`", "`static`", "`type`"] ++ if bare then bangStarts else [])

def foreignBlock (g : Level) (attributes : List Tree) : Parser (List Tree) := do
  let before := attributes ++ (← wordOpt "unsafe")
  if !(← peek (isWord "extern")) then wanted ["`extern`"]
  let abi ← abiOpt
  let items ← tokensIn .brace do
    return Attribute.listTokens (← innerAttributes g) ++ (← filling (foreignItem g))
  return before ++ abi ++ items

-- The trees of an import in braces.
def useGroup (g : Level) (root : Bool) : Parser (Option (List Tree)) := do
  let inner ← inGroup .brace do
    let (tokens, rooted, _) ← repeating (fun (tokens, rooted, more) => do
      if !more || (← peek isEnd) then return none
      let colons ← if root then opOpt [':', ':'] else pure []
      let tree ← g.useTree (root && colons.isEmpty)
      let more := !(← peek isEnd)
      let comma ← commaUnlessEnd
      match tree with
      | some ts =>
        return some (tokens ++ ts ++ comma, rooted || !colons.isEmpty, more)
      | none => return some (tokens, true, more)) (([] : List Tree), false, true)
    return if rooted then none else some tokens
  return inner.value.map fun ts => [.group .brace ts inner.start inner.stop]

def useTree (g : Level) (root : Bool) : Parser (Option (List Tree)) := do
  if ← peek fun ts => isIdent ts || isWordOf ["self", "super", "crate", "try"] ts then
    let name := [Tree.ident (← anyIdent)]
    if ← peek (isOp [':', ':']) then
      let colons ← op [':', ':']
      return (← g.useTree false).map fun ts => name ++ colons ++ ts
    else if ← peek (isWord "as") then
      let asWord ← word "as"
      if (← peek isIdent) || (← peek (isWord "_")) then
        return some (name ++ asWord ++ [.ident (← anyIdent)])
      else wanted ["identifier or underscore"]
    else return some name
  else if ← peek (isOp ['*']) then return some (← op ['*'])
  else if ← peek (isGroup .brace) then useGroup g root
  else wanted ["identifier", "`self`", "`super`", "`crate`", "`try`", "`*`", "curly braces"]

def useItem (g : Level) (start : Cursor) (attributes : List Tree) : Parser (List Tree) := do
  let before := attributes ++ (← visibility) ++ (← word "use")
  let colons ← opOpt [':', ':']
  let tree ← useTree g colons.isEmpty
  let semicolon ← op [';']
  match tree with
  | some ts => return before ++ colons ++ ts ++ semicolon
  | none => verbatimSince start

def staticItem (g : Level) (start : Cursor) (attributes : List Tree) : Parser (List Tree) := do
  let before := attributes ++ (← visibility) ++ (← word "static") ++ (← wordOpt "mut") ++
    [.ident (← ident)]
  if ← peek (isOp ['=']) then
    let _ ← op ['=']
    let _ ← g.expr true
    let _ ← op [';']
    verbatimSince start
  else
    let typed := before ++ (← op [':']) ++ (← g.ty true).tokens
    if ← peek (isOp [';']) then
      let _ ← op [';']
      verbatimSince start
    else return typed ++ (← op ['=']) ++ (← g.expr true).tokens ++ (← op [';'])

def moduleItem (g : Level) (attributes : List Tree) : Parser (List Tree) := do
  let before := attributes ++ (← visibility) ++ (← wordOpt "unsafe") ++ (← word "mod")
  let name ← if ← peek (isWord "try") then anyIdent else ident
  let before := before ++ [.ident name]
  if ← peek (isOp [';']) then return before ++ (← op [';'])
  else if ← peek (isGroup .brace) then
    return before ++ (← tokensIn .brace do
      return Attribute.listTokens (← innerAttributes g) ++ (← filling g.item))
  else wanted ["`;`", "curly braces"]

def aliasItem (g : Level) (start : Cursor) (attributes : List Tree) : Parser (List Tree) := do
  let before := attributes ++ (← visibility)
  let t ← typeItem g true false
  if t.definition.isEmpty || !t.colon.isEmpty then verbatimSince start
  else return before ++ t.start ++ t.generics.tokens ++ t.whereClause.tokens ++ t.definition ++
    t.semicolon

-- The type of a field. A field without a name may have its type declared in place.
def fieldTy (g : Level) (unnamed : Bool) : Parser (List Tree) := do
  if unnamed && (← peek fun ts =>
      isWord "struct" ts || (isWord "union" ts && isGroup .brace (ts.drop 1))) then
    let start ← get
    skip 1
    let _ ← g.fields
    verbatimSince start
  else return (← g.ty true).tokens

-- One field of a record declaration.
def namedField (g : Level) : Parser (List Tree) := do
  let before := (← outerTokens g) ++ (← visibility)
  let unnamed ← peek (isWord "_")
  let name ← if unnamed then anyIdent else ident
  let colon ← op [':']
  return before ++ [.ident name] ++ colon ++ (← fieldTy g unnamed)

-- The fields of a record declaration, with their braces.
def namedFields (g : Level) : Parser (List Tree) :=
  tokensIn .brace (separatedTokens isEnd [','] (namedField g))

-- The fields of a tuple declaration, with their brackets.
def unnamedFields (g : Level) : Parser (List Tree) :=
  tokensIn .paren (separatedTokens isEnd [','] do
    return (← outerTokens g) ++ (← visibility) ++ (← g.ty true).tokens)

-- The part of a record or tuple type after its generic parameters.
def structBody (g : Level) : Parser (List Tree) := do
  let hasWhere ← peek (isWord "where")
  let before := (← whereClause g).tokens
  if !hasWhere && (← peek (isGroup .paren)) then
    let fields ← unnamedFields g
    let after ← whereClause g
    if ← peek (isOp [';']) then return fields ++ after.tokens ++ (← op [';'])
    else wanted (if after.isWritten then ["`;`"] else ["`where`", "`;`"])
  else if ← peek (isGroup .brace) then return before ++ (← namedFields g)
  else if ← peek (isOp [';']) then return before ++ (← op [';'])
  else wanted (if hasWhere then ["curly braces", "`;`"]
    else ["`where`", "parentheses", "curly braces", "`;`"])

-- A record or tuple type.
def structItem (g : Level) (attributes : List Tree) : Parser (List Tree) := do
  let before := attributes ++ (← visibility) ++ (← word "struct") ++ [.ident (← ident)]
  let params := (← generics g).tokens
  return before ++ params ++ (← structBody g)

-- One variant of an enumeration. Its visibility is not printed.
def variant (g : Level) : Parser (List Tree) := do
  let attributes ← outerTokens g
  let _ ← visibility
  let name ← ident
  let fields ← if ← peek (isGroup .brace) then namedFields g
    else if ← peek (isGroup .paren) then unnamedFields g
    else pure []
  let value ← if ← peek (isOp ['=']) then pure ((← op ['=']) ++ (← g.expr true).tokens)
    else pure []
  return attributes ++ [.ident name] ++ fields ++ value

def enumItem (g : Level) (attributes : List Tree) : Parser (List Tree) := do
  let before := attributes ++ (← visibility) ++ (← word "enum") ++ [.ident (← ident)]
  let params := (← generics g).tokens
  let whereClause := (← whereClause g).tokens
  return before ++ params ++ whereClause ++
    (← tokensIn .brace (separatedTokens isEnd [','] (variant g)))

def unionItem (g : Level) (attributes : List Tree) : Parser (List Tree) := do
  let before := attributes ++ (← visibility) ++ (← word "union") ++ [.ident (← ident)]
  let params := (← generics g).tokens
  let whereClause := (← whereClause g).tokens
  return before ++ params ++ whereClause ++ (← namedFields g)

def traitFunction (g : Level) (attributes : List Tree) : Parser (List Tree) := do
  let before := attributes ++ (← signature g).tokens
  if ← peek (isGroup .brace) then return before ++ (← block g)
  else if ← peek (isOp [';']) then return before ++ (← op [';'])
  else wanted ["curly braces", "`;`"]

def traitType (g : Level) (attributes : List Tree) : Parser (List Tree) := do
  let before := attributes ++ (← visibility)
  let t ← typeItem g false true
  let bounds := if t.bounds.isEmpty then [] else t.colon ++ t.bounds
  return before ++ t.start ++ t.generics.tokens ++ bounds ++ t.definition ++
    t.whereClause.tokens ++ t.semicolon

-- An item of a trait. One with a visibility is kept as it was written.
def traitItem (g : Level) : Parser (List Tree) := do
  let start ← get
  let attributes ← outerTokens g
  let bare := (← visibility).isEmpty && (← wordOpt "default").isEmpty
  let item ← if ← peek (startsSignature false) then traitFunction g attributes
    else if ← peek (isWord "const") then constItem g start attributes false
    else if ← peek (isWord "type") then traitType g attributes
    else if bare && (← peek startsBang) then pure (attributes ++ (← bangItem))
    else wanted (["`fn`", "`const`", "`type`"] ++ if bare then bangStarts else [])
  if bare then return item else verbatimSince start

-- Where the bounds after the name of a trait end.
def endsSupertraits : Look := fun ts => isWord "where" ts || isGroup .brace ts

-- A trait, or another name for a combination of bounds.
def traitDeclaration (g : Level) (attributes : List Tree) : Parser (List Tree) := do
  let visibility ← visibility
  let marker := (← wordOpt "unsafe") ++ (← wordOpt "auto")
  let before := attributes ++ visibility ++ marker ++ (← word "trait") ++ [.ident (← ident)]
  let before := before ++ (← generics g).tokens
  if marker.isEmpty && (← peek (isOp ['='])) then
    let eq ← op ['=']
    let bounds ← boundsUpTo g fun ts => isWord "where" ts || isOp [';'] ts
    return before ++ eq ++ bounds ++ (← whereClause g).tokens ++ (← op [';'])
  if marker.isEmpty &&
      !(← peek fun ts => isGroup .brace ts || isOp [':'] ts || isWord "where" ts) then
    wanted ["curly braces", "`:`", "`where`", "`=`"]
  let colon ← opOpt [':']
  let bounds ← if colon.isEmpty then pure [] else boundsUpTo g endsSupertraits
  let whereClause := (← whereClause g).tokens
  let body ← tokensIn .brace do
    return Attribute.listTokens (← innerAttributes g) ++ (← filling (traitItem g))
  return before ++ (if bounds.isEmpty then [] else colon ++ bounds) ++ whereClause ++ body

-- A block that implements something, inside a body.
def implInBody (g : Level) (start : Cursor) (attributes : List Attribute) :
    Parser (List Tree) := do
  match ← implBlockWith g true attributes with
  | some b => return b.tokens
  | none => verbatimSince start

-- A declaration of a `!` form by patterns.
def patternMacro (start : Cursor) : Parser (List Tree) := do
  let _ ← word "macro"
  let _ ← ident
  let hasParams ← peek (isGroup .paren)
  if hasParams then skip 1
  if ← peek (isGroup .brace) then
    skip 1
    verbatimSince start
  else wanted (if hasParams then ["curly braces"] else ["parentheses", "curly braces"])

-- A `!` form as an item, perhaps with a name.
def namedBang (attributes : List Tree) : Parser (List Tree) := do
  let p ← plainPath
  let bang ← op ['!']
  let name ← if (← peek isIdent) || (← peek (isWord "try")) then
      pure [Tree.ident (← anyIdent)]
    else pure []
  let (d, body, start, stop) ← anyGroup
  let tokens := attributes ++ p.tokens ++ bang ++ name ++ [.group d body start stop]
  if d = .brace then return tokens else return tokens ++ (← op [';'])

-- An item that starts with `extern` and declares no function.
def externItem (g : Level) (afterAttributes : Cursor) (attributes : List Tree) :
    Parser (List Tree) := do
  let _ ← word "extern"
  if ← peek (isWord "crate") then
    set afterAttributes
    externCrate attributes
  else
    let hasAbi ← peek isString
    if hasAbi then skip 1
    if ← peek (isGroup .brace) then
      set afterAttributes
      foreignBlock g attributes
    else wanted (if hasAbi then ["curly braces"] else ["`crate`", "curly braces", "string literal"])

-- An item that starts with `unsafe` and declares no function.
def unsafeItem (g : Level) (start afterAttributes : Cursor) (attributes : List Attribute) :
    Parser (List Tree) := do
  let tokens := Attribute.listTokens attributes
  let _ ← word "unsafe"
  let ts := (← get).trees
  set afterAttributes
  if isWord "trait" ts || (isWord "auto" ts && isWord "trait" (ts.drop 1)) then
    traitDeclaration g tokens
  else if isWord "impl" ts then implInBody g start attributes
  else if isWord "extern" ts then foreignBlock g tokens
  else if isWord "mod" ts then moduleItem g tokens
  else
    let _ ← visibility
    let _ ← word "unsafe"
    wanted ["`trait`", "`auto`", "`impl`", "`extern`", "`mod`"]

-- What an item may start with.
def itemStarts : List String :=
  ["`fn`", "`extern`", "`use`", "`static`", "`const`", "`unsafe`", "`mod`", "`type`", "`struct`",
    "`enum`", "`union`", "`trait`", "`auto`", "`impl`", "`default`", "`macro`"]

-- An item after its attributes, which were read since `start`.
def itemAfter (g : Level) (start : Cursor) (attributes : List Attribute) : Parser (List Tree) := do
  let tokens := Attribute.listTokens attributes
  let afterAttributes ← get
  let bare := (← visibility).isEmpty
  let afterVisibility ← get
  let ts := afterVisibility.trees
  let second := ts.drop 1
  set afterAttributes
  if startsSignature false ts then functionItem g start tokens
  else if isWord "extern" ts then
    set afterVisibility
    externItem g afterAttributes tokens
  else if isWord "use" ts then useItem g start tokens
  else if isWord "static" ts then staticItem g start tokens
  else if isWord "const" ts then constItem g start (tokens ++ (← visibility)) true
  else if isWord "unsafe" ts then
    set afterVisibility
    unsafeItem g start afterAttributes attributes
  else if isWord "mod" ts then moduleItem g tokens
  else if isWord "type" ts then aliasItem g start tokens
  else if isWord "struct" ts then structItem g tokens
  else if isWord "enum" ts then enumItem g tokens
  else if isWord "union" ts && isIdent second then unionItem g tokens
  else if isWord "trait" ts || (isWord "auto" ts && isWord "trait" second) then
    traitDeclaration g tokens
  else if isWord "impl" ts || startsDefault ts then implInBody g start attributes
  else if isWord "macro" ts then
    set afterVisibility
    patternMacro start
  else if bare && startsBang ts then namedBang tokens
  else
    set afterVisibility
    wanted (itemStarts ++ if bare then bangStarts else [])

def item (g : Level) : Parser (List Tree) := do
  let start ← get
  itemAfter g start (← outerAttributes g)

end Lifecycle.Grammar
