import Lifecycle.Text.Blank
import Lifecycle.Text.Quoted
import Lifecycle.Token
import Lifecycle.Token.Literal

namespace Lifecycle

open Text

-- A token, or one bracket of a group: what a text is cut into before it is grouped by delimiters.
inductive Lexeme where
  | leaf (tree : Tree)
  | opening (delimiter : Delimiter) (pos : Position)
  | closing (delimiter : Delimiter) (pos : Position)

namespace Lexer

-- The length of a block comment from inside, at so many open comments.
def blockComment : Nat → List Char → Option Nat
  | depth, '/' :: '*' :: cs => (blockComment (depth + 1) cs).map (· + 2)
  | depth, '*' :: '/' :: cs =>
    if depth ≤ 1 then some 2 else (blockComment (depth - 1) cs).map (· + 2)
  | depth, _ :: cs => (blockComment depth cs).map (· + 1)
  | _, [] => none

-- The length of the rest of a line.
def lineLength (cs : List Char) : Nat :=
  (cs.takeWhile (· ≠ '\n')).length

-- Whether a text that starts with two slashes starts a documentation comment.
def isDocLine : List Char → Bool
  | '!' :: _ => true
  | '/' :: '/' :: _ => false
  | '/' :: _ => true
  | _ => false

-- Whether a text that starts with a slash and a star starts a documentation comment.
def isDocBlock : List Char → Bool
  | '!' :: _ => true
  | '*' :: '*' :: _ => false
  | '*' :: '/' :: _ => false
  | '*' :: _ => true
  | _ => false

-- The length of one blank character or ordinary comment.
def blankLength : List Char → Option Nat
  | '/' :: '/' :: cs => if isDocLine cs then none else some (lineLength cs + 2)
  | '/' :: '*' :: cs => if isDocBlock cs then none else (blockComment 1 cs).map (· + 2)
  | c :: _ => if isBlank c then some 1 else none
  | [] => none

-- A documentation comment: its length, its content and whether it documents what encloses it.
structure Doc where
  length : Nat
  content : List Char
  inner : Bool

-- The content of a line, without the carriage return of its end.
def lineContent (cs : List Char) : List Char :=
  let content := cs.takeWhile (· ≠ '\n')
  if content.length < cs.length ∧ content.getLast? = some '\r' then content.dropLast else content

-- Whether each carriage return is followed by a line feed.
def hasNoBareReturn : List Char → Bool
  | '\r' :: '\n' :: cs => hasNoBareReturn cs
  | '\r' :: _ => false
  | _ :: cs => hasNoBareReturn cs
  | [] => true

-- The documentation comment that a text starts with.
def doc? : List Char → Option Doc
  | '/' :: '/' :: mark :: cs =>
    if isDocLine (mark :: cs) ∧ hasNoBareReturn (lineContent cs) then
      some { length := lineLength cs + 3, content := lineContent cs, inner := mark == '!' }
    else none
  | '/' :: '*' :: mark :: cs =>
    if isDocBlock (mark :: cs) then
      match blockComment 1 (mark :: cs) with
      | some n =>
        let content := cs.take (n - 3)
        if hasNoBareReturn content then
          some { length := n + 2, content, inner := mark == '!' }
        else none
      | none => none
    else none
  | _ => none

-- The attribute that a documentation comment stands for.
def Doc.lexemes (d : Doc) (pos : Position) : List Lexeme :=
  let docGroup := Tree.group .bracket
    [.ident { text := "doc", pos }, .punct '=' false pos,
      .literal (String.ofList (Quoted.quote d.content)) pos] pos pos
  let mark := if d.inner then [Lexeme.leaf (.punct '!' false pos)] else []
  Lexeme.leaf (.punct '#' false pos) :: mark ++ [.leaf docGroup]

def operatorChars : List Char :=
  ['~', '!', '@', '#', '$', '%', '^', '&', '*', '-', '=', '+', '|', ';', ':', ',', '<', '.', '>',
    '/', '?', '\x27']

-- Whether a text starts with an operator character and not with a comment.
def startsOperator : List Char → Bool
  | '/' :: '/' :: _ => false
  | '/' :: '*' :: _ => false
  | c :: _ => operatorChars.contains c
  | [] => false

-- Texts that announce a quoted literal and therefore start no identifier.
def quoteMarks : List (List Char) :=
  ['\x22', '\x27'].map (fun q => ['b', q]) ++
  [['r', '\x22'], ['r', '#', '\x22'], ['r', '#', '#'], ['b', 'r', '\x22'], ['b', 'r', '#'],
    ['c', '\x22'], ['c', 'r', '\x22'], ['c', 'r', '#']]

-- Names that cannot be written raw.
def neverRaw : List (List Char) :=
  [['_'], ['s', 'u', 'p', 'e', 'r'], ['s', 'e', 'l', 'f'], ['S', 'e', 'l', 'f'],
    ['c', 'r', 'a', 't', 'e']]

-- The length of the identifier, raw or not, that a text starts with.
def nameLength? : List Char → Option Nat
  | 'r' :: '#' :: cs =>
    let n := identifierLength cs
    if n = 0 ∨ cs.take n ∈ neverRaw then none else some (n + 2)
  | cs => if identifierLength cs = 0 then none else some (identifierLength cs)

-- The length of the identifier that a text starts with, unless it announces a literal.
def identLength? (cs : List Char) : Option Nat :=
  if quoteMarks.any (·.isPrefixOf cs) then none else nameLength? cs

-- The text that stands for a literal which could not be written.
def errorMark : List Char :=
  ['(', '/', '*', 'E', 'R', 'R', 'O', 'R', '*', '/', ')']

-- Whether an apostrophe before this text starts a lifetime.
def startsLifetime (cs : List Char) : Bool :=
  match nameLength? cs with
  | some n =>
    match cs.drop n with
    | '\x27' :: _ => false
    | '#' :: _ => ['r', '#'].isPrefixOf cs
    | _ => true
  | none => false

-- A lifetime, read from after its apostrophe; a quoted literal takes precedence over its name.
def lifetime? (pos : Position) (cs : List Char) : Option (Nat × Tree) :=
  if startsLifetime cs then
    if (Literal.length? cs).isSome then some (0, .punct '\x27' true pos)
    else (identLength? cs).map fun n => (n, .lifetime (String.ofList (cs.take n)) pos)
  else none

-- The token that starts with the character `c`, and how many characters it takes after `c`.
def token? (pos : Position) (c : Char) (cs : List Char) : Option (Nat × Tree) :=
  match Literal.length? (c :: cs) with
  | some n => some (n - 1, .literal (String.ofList ((c :: cs).take n)) pos)
  | none =>
    if c = '\x27' then lifetime? pos cs
    else if startsOperator (c :: cs) then some (0, .punct c (startsOperator cs) pos)
    else
      match identLength? (c :: cs) with
      | some n => some (n - 1, .ident { text := String.ofList ((c :: cs).take n), pos })
      | none => none

-- What starts with the character `c`: its lexemes and how many characters it takes after `c`.
def item? (pos : Position) (c : Char) (cs : List Char) : Option (Nat × List Lexeme) :=
  match blankLength (c :: cs) with
  | some n => some (n - 1, [])
  | none =>
    match doc? (c :: cs) with
    | some d => some (d.length - 1, d.lexemes pos)
    | none =>
      if errorMark.isPrefixOf (c :: cs) then
        some (errorMark.length - 1, [.leaf (.literal (String.ofList errorMark) pos)])
      else
        match Delimiter.ofOpening? c, Delimiter.ofClosing? c with
        | some d, _ => some (0, [.opening d pos])
        | none, some d => some (0, [.closing d pos])
        | none, none => (token? pos c cs).map fun (n, tree) => (n, [.leaf tree])

-- The lexemes of a text of at most `fuel` characters.
def lexemesWithin : Nat → Position → List Char → Option (List Lexeme)
  | _, _, [] => some []
  | 0, _, _ :: _ => none
  | fuel + 1, pos, c :: cs =>
    match item? pos c cs with
    | some (n, ls) =>
      (lexemesWithin fuel (pos.advance (c :: cs.take n)) (cs.drop n)).map (ls ++ ·)
    | none => none

-- The lexemes of a text. A byte order mark in front of it is skipped.
def lexemes (cs : List Char) : Option (List Lexeme) :=
  match cs with
  | '\ufeff' :: rest => lexemesWithin rest.length (Position.step {} '\ufeff') rest
  | _ => lexemesWithin cs.length {} cs

-- A group that is still open: its bracket and the trees before it, last one first.
structure Frame where
  delimiter : Delimiter
  start : Position
  before : List Tree

-- Groups lexemes, given the open groups and the trees of the innermost one, last one first.
def group : List Frame → List Tree → List Lexeme → Option (List Tree)
  | [], done, [] => some done.reverse
  | _ :: _, _, [] => none
  | frames, done, .leaf t :: ls => group frames (t :: done) ls
  | frames, done, .opening d pos :: ls => group (⟨d, pos, done⟩ :: frames) [] ls
  | [], _, .closing _ _ :: _ => none
  | f :: frames, done, .closing d pos :: ls =>
    if f.delimiter = d then
      group frames (.group d done.reverse f.start pos :: f.before) ls
    else none

end Lexer

-- The token trees of a text, if it has any reading as tokens.
def Tree.read? (cs : List Char) : Option (List Tree) :=
  (Lexer.lexemes cs).bind (Lexer.group [] [])

end Lifecycle
