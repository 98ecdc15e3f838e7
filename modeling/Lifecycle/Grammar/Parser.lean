import Lifecycle.Grammar.Complaint
import Lifecycle.Token.Lexer
import Lifecycle.Token.Literal.Value
/-!
Parsers over token trees.

A parser reads from the front of a sequence of trees. It either fails with the first complaint or
goes on; tokens left over inside a group do not stop it, they are noted and complained about when
everything else has been read.
-/

namespace Lifecycle

open Text

-- What is left to read.
structure Cursor where
  trees : List Tree
  -- Where the enclosing group ends.
  stop : Position := {}
  -- The brackets of the enclosing group.
  within : Option Delimiter := none
  -- The first token that was left over in a group.
  leftover : Option (Position × Delimiter) := none

-- A parser with results of type `α`.
abbrev Parser (α : Type) := StateT Cursor (Except GrammarError) α

-- A question about the next trees.
abbrev Look := List Tree → Bool

-- The place of the next tree, or of the end of the enclosing group.
def Cursor.pos (c : Cursor) : Position :=
  match c.trees with
  | t :: _ => t.pos
  | [] => c.stop

namespace Parser

-- The words that are no identifiers.
def keywords : List String :=
  ["_", "abstract", "as", "async", "await", "become", "box", "break", "const", "continue", "crate",
    "do", "dyn", "else", "enum", "extern", "false", "final", "fn", "for", "if", "impl", "in", "let",
    "loop", "macro", "match", "mod", "move", "mut", "override", "priv", "pub", "ref", "return",
    "Self", "self", "static", "struct", "super", "trait", "true", "try", "type", "typeof", "unsafe",
    "unsized", "use", "virtual", "where", "while", "yield"]

-- The next tree is this word.
def isWord (w : String) : Look
  | .ident name :: _ => name.text == w
  | _ => false

-- The next tree is one of these words.
def isWordOf (ws : List String) : Look
  | .ident name :: _ => ws.contains name.text
  | _ => false

-- The next tree is an identifier or keyword.
def isAnyIdent : Look
  | .ident _ :: _ => true
  | _ => false

-- The next tree is an identifier.
def isIdent : Look
  | .ident name :: _ => !keywords.contains name.text
  | _ => false

-- The next trees start with the characters of an operator, each joined to the next.
def isOp : List Char → Look
  | [], _ => true
  | [c], .punct c' _ _ :: _ => c == c'
  | c :: d :: cs, .punct c' joint _ :: rest => c == c' && joint && isOp (d :: cs) rest
  | _, _ => false

-- The next tree is a group in these brackets.
def isGroup (d : Delimiter) : Look
  | .group d' _ _ _ :: _ => d == d'
  | _ => false

-- The next tree is a group.
def isAnyGroup : Look
  | .group _ _ _ _ :: _ => true
  | _ => false

-- The next tree is a lifetime.
def isLifetime : Look
  | .lifetime _ _ :: _ => true
  | _ => false

def isEnd : Look := List.isEmpty

-- The literal that the next trees form, and the number of them: a token, a truth value, or a
-- number with a minus sign in front.
def literal? : List Tree → Option (Literal × Nat)
  | .literal text _ :: _ => some (Literal.ofText text, 1)
  | .ident name :: _ =>
    if name.text = "true" then some (.bool true, 1)
    else if name.text = "false" then some (.bool false, 1)
    else none
  | .punct '-' _ _ :: .literal text _ :: _ =>
    match Literal.ofText text with
    | .int v s => some (.int v s, 2)
    | .float => some (.float, 2)
    | _ => none
  | _ => none

-- The next trees form a literal.
def isLiteral : Look := fun ts => (literal? ts).isSome

-- The next tree is a string literal.
def isString : Look := fun ts => match literal? ts with | some (.str _ _, _) => true | _ => false

-- Asks about the next trees.
def peek (look : Look) : Parser Bool := do
  return look (← get).trees

-- Asks about the trees after the next `n`.
def peekAt (n : Nat) (look : Look) : Parser Bool := do
  return look ((← get).trees.drop n)

def failAt {α : Type} (pos : Position) (complaint : Complaint) : Parser α :=
  throw { complaint, pos }

def failWith {α : Type} (complaint : Complaint) : Parser α := do
  failAt (Cursor.pos (← get)) complaint

-- Fails because one of some things must stand here.
def wanted {α : Type} (things : List String) : Parser α := do
  failWith (.wanted things (← get).trees.isEmpty)

-- Drops the next `n` trees.
def skip (n : Nat) : Parser Unit :=
  modify fun c => { c with trees := c.trees.drop n }

def word (w : String) : Parser (List Tree) := do
  match (← get).trees with
  | .ident name :: rest =>
    if name.text = w then
      modify fun c => { c with trees := rest }
      return [.ident name]
    else wanted ["`" ++ w ++ "`"]
  | _ => wanted ["`" ++ w ++ "`"]

def wordOpt (w : String) : Parser (List Tree) := do
  if ← peek (isWord w) then word w else return []

-- The trees after an operator.
def dropOp : List Char → List Tree → List Tree
  | _ :: cs, _ :: rest => dropOp cs rest
  | _, rest => rest

def op (cs : List Char) : Parser (List Tree) := do
  let c ← get
  if isOp cs c.trees then
    set { c with trees := dropOp cs c.trees }
    return Tree.operator (Cursor.pos c) cs
  else failWith (.wanted ["`" ++ String.ofList cs ++ "`"] false)

def opOpt (cs : List Char) : Parser (List Tree) := do
  if ← peek (isOp cs) then op cs else return []

def ident : Parser Ident := do
  match (← get).trees with
  | .ident name :: rest =>
    if keywords.contains name.text then failWith (.keyword name.text)
    else
      modify fun c => { c with trees := rest }
      return name
  | _ => wanted ["identifier"]

-- Reads an identifier or keyword.
def anyIdent : Parser Ident := do
  match (← get).trees with
  | .ident name :: rest =>
    modify fun c => { c with trees := rest }
    return name
  | _ => wanted ["ident"]

def lifetime : Parser (List Tree) := do
  match (← get).trees with
  | .lifetime name pos :: rest =>
    modify fun c => { c with trees := rest }
    return [.lifetime name pos]
  | _ => wanted ["lifetime"]

def lifetimeOpt : Parser (List Tree) := do
  if ← peek isLifetime then lifetime else return []

def literal : Parser (Literal × List Tree) := do
  let c ← get
  match literal? c.trees with
  | some (l, n) =>
    set { c with trees := c.trees.drop n }
    let tokens := c.trees.take n
    return (l, tokens.map fun | .punct ch _ pos => .punct ch false pos | t => t)
  | none => wanted ["literal"]

-- The contents of a group and its brackets.
structure Grouped (α : Type) where
  value : α
  start : Position
  stop : Position

-- Reads a group whose contents `p` reads.
def inGroup {α : Type} (d : Delimiter) (p : Parser α) : Parser (Grouped α) := do
  let c ← get
  match c.trees with
  | .group d' body start stop :: rest =>
    if d = d' then
      let (value, inner) ← p.run
        { trees := body, stop, within := some d, leftover := c.leftover }
      let leftover := inner.leftover <|> inner.trees.head?.map fun t => (t.pos, d)
      set { c with trees := rest, leftover }
      return { value, start, stop }
    else wanted [d.label]
  | _ => wanted [d.label]

-- Reads a group, with the tokens that `p` makes of its contents.
def tokensIn (d : Delimiter) (p : Parser (List Tree)) : Parser (List Tree) := do
  let g ← inGroup d p
  return [.group d g.value g.start g.stop]

-- Reads any group as it is.
def anyGroup : Parser (Delimiter × List Tree × Position × Position) := do
  match (← get).trees with
  | .group d body start stop :: rest =>
    modify fun c => { c with trees := rest }
    return (d, body, start, stop)
  | _ => wanted ["delimiter"]

-- Repeats a step until it yields nothing, at most `n` times.
def repeatAtMost {α : Type} (step : α → Parser (Option α)) : Nat → α → Parser α
  | 0, a => pure a
  | n + 1, a => do
    match ← step a with
    | some a' => repeatAtMost step n a'
    | none => pure a

-- Repeats a step that reads at least one tree each time.
def repeating {α : Type} (step : α → Parser (Option α)) (a : α) : Parser α := do
  repeatAtMost step ((← get).trees.length + 1) a

-- Reads items up to `stop` with a separator between them, and perhaps one after the last. Each
-- item comes with the tokens of the separator after it.
def separated {α : Type} (stop : Look) (sep : List Char) (item : Parser α) :
    Parser (List (α × List Tree)) := do
  let step : List (α × List Tree) × Bool → Parser (Option (List (α × List Tree) × Bool))
    | (done, more) => do
      if !more || (← peek stop) then return none
      let a ← item
      if ← peek stop then return some ((a, []) :: done, false)
      let s ← op sep
      return some ((a, s) :: done, true)
  let (done, _) ← repeating step ([], true)
  return done.reverse

-- Reads items as long as a separator follows them, not starting another one at `stop`.
def chained {α : Type} (stop : Look) (sep : List Char) (item : Parser α) :
    Parser (List (α × List Tree)) := do
  let step : List (α × List Tree) × Bool → Parser (Option (List (α × List Tree) × Bool))
    | (done, more) => do
      if !more || (← peek stop) then return none
      let a ← item
      if ← peek (isOp sep) then return some ((a, ← op sep) :: done, true)
      return some ((a, []) :: done, false)
  let (done, _) ← repeating step ([], true)
  return done.reverse

-- The tokens of items with their separators.
def joined (items : List (List Tree × List Tree)) : List Tree :=
  items.flatMap fun (a, s) => a ++ s

def separatedTokens (stop : Look) (sep : List Char) (item : Parser (List Tree)) :
    Parser (List Tree) :=
  return joined (← separated stop sep item)

-- Items that fill a group, one after another.
def filling (item : Parser (List Tree)) : Parser (List Tree) :=
  repeating (fun done => do
    if ← peek isEnd then return none else return some (done ++ (← item))) []

-- What a parser would yield here, if it succeeds; nothing is read.
def attempt? {α : Type} (p : Parser α) : Parser (Option (α × Cursor)) := do
  match p.run (← get) with
  | .ok r => return some r
  | .error _ => return none

-- The trees as they are from an earlier cursor up to here.
def verbatimSince (start : Cursor) : Parser (List Tree) := do
  return start.trees.take (start.trees.length - (← get).trees.length)

-- Reads all of a sequence of trees.
def all {α : Type} (p : Parser α) (trees : List Tree) (stop : Position) :
    Except GrammarError α := do
  let (a, c) ← p.run { trees, stop }
  match c.leftover, c.trees with
  | some (pos, d), _ => throw { complaint := .leftover (some d), pos }
  | none, t :: _ => throw { complaint := .leftover none, pos := t.pos }
  | none, [] => return a

-- Reads all of a text.
def text {α : Type} (p : Parser α) (text : String) : Except GrammarError α :=
  match Tree.read? text.toList with
  | some trees => all p trees {}
  | none => throw { complaint := .noTokens }

end Parser

end Lifecycle
