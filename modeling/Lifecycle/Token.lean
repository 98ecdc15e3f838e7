import Lifecycle.Text.Position

namespace Lifecycle

open Text

-- An identifier or keyword, with `r#` in front if it was written raw.
structure Ident where
  text : String
  pos : Position := {}
deriving DecidableEq, Repr, Inhabited

-- The brackets around a group.
inductive Delimiter where
  | paren
  | bracket
  | brace
deriving DecidableEq, Repr

namespace Delimiter

def opening : Delimiter → Char
  | .paren => '('
  | .bracket => '['
  | .brace => '\x7b'

def closing : Delimiter → Char
  | .paren => ')'
  | .bracket => ']'
  | .brace => '\x7d'

-- The delimiter that a character opens.
def ofOpening? (c : Char) : Option Delimiter :=
  if c = '(' then some .paren
  else if c = '[' then some .bracket
  else if c = '\x7b' then some .brace
  else none

-- The delimiter that a character closes.
def ofClosing? (c : Char) : Option Delimiter :=
  if c = ')' then some .paren
  else if c = ']' then some .bracket
  else if c = '\x7d' then some .brace
  else none

-- What a pair of these brackets is called.
def label : Delimiter → String
  | .paren => "parentheses"
  | .bracket => "square brackets"
  | .brace => "curly braces"

@[simp] theorem ofOpening?_opening (d : Delimiter) : ofOpening? d.opening = some d := by
  cases d <;> decide

@[simp] theorem ofClosing?_closing (d : Delimiter) : ofClosing? d.closing = some d := by
  cases d <;> decide

@[simp] theorem ofOpening?_closing (d : Delimiter) : ofOpening? d.closing = none := by
  cases d <;> decide

end Delimiter

-- A token or a delimited group of tokens, with its spelling and where it was read.
inductive Tree where
  -- An identifier or keyword.
  | ident (name : Ident)
  -- One punctuation character; a joint one belongs to an operator with the next.
  | punct (char : Char) (joint : Bool) (pos : Position)
  -- A lifetime, by its name without the apostrophe.
  | lifetime (name : String) (pos : Position)
  | literal (text : String) (pos : Position)
  -- A group, with the places of its two brackets.
  | group (delimiter : Delimiter) (body : List Tree) (start stop : Position)
deriving Repr, Inhabited

namespace Tree

def pos : Tree → Position
  | .ident name => name.pos
  | .punct _ _ p => p
  | .lifetime _ p => p
  | .literal _ p => p
  | .group _ _ p _ => p

-- Whether the next token follows without a space.
def isJoint : Tree → Bool
  | .punct _ joint _ => joint
  | _ => false

-- The space after a tree that another one follows.
def gap (t : Tree) : List Char :=
  if t.isJoint then [] else [' ']

mutual

-- The canonical text of a tree. Round and square brackets hug their contents, braces do not.
def chars : Tree → List Char
  | .ident name => name.text.toList
  | .punct c _ _ => [c]
  | .lifetime name _ => '\x27' :: name.toList
  | .literal text _ => text.toList
  | .group .paren body _ _ => '(' :: render body ++ [')']
  | .group .bracket body _ _ => '[' :: render body ++ [']']
  | .group .brace [] _ _ => ['\x7b', ' ', '\x7d']
  | .group .brace (t :: rest) _ _ => '\x7b' :: ' ' :: render (t :: rest) ++ [' ', '\x7d']

-- The canonical text of a sequence of trees, with one space between two of them unless the first is
-- joined to the second.
def render : List Tree → List Char
  | [] => []
  | [t] => chars t
  | t :: u :: rest => chars t ++ gap t ++ render (u :: rest)

end

-- The canonical text as a string.
def text (trees : List Tree) : String :=
  String.ofList (render trees)

mutual

-- The number of tokens in a tree, a group counting as its contents and one more.
def size : Tree → Nat
  | .group _ body _ _ => sizes body + 1
  | _ => 1

-- The number of tokens in a sequence of trees.
def sizes : List Tree → Nat
  | [] => 0
  | t :: rest => size t + sizes rest

end

-- A name written by the generator.
def word (name : String) : Tree :=
  .ident { text := name }

-- An operator: all its characters are joined.
def operator (pos : Position) : List Char → List Tree
  | [] => []
  | [c] => [.punct c false pos]
  | c :: d :: rest => .punct c true pos :: operator pos (d :: rest)

-- A group written by the generator.
def grouped (d : Delimiter) (body : List Tree) : Tree :=
  .group d body {} {}

end Tree

end Lifecycle
