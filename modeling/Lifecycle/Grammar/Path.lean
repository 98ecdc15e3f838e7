import Lifecycle.Grammar.Complaint

namespace Lifecycle

open Text

-- An argument or parameter between angle brackets.
structure Argument where
  isLifetime : Bool
  tokens : List Tree
  -- The comma after it, if there is one.
  comma : List Tree

-- The arguments of a path segment.
inductive Arguments where
  | none
  -- Between angle brackets, with `::` before them if it was written.
  | angle (turbofish : List Tree) (start : List Tree) (items : List Argument) (stop : List Tree)
  -- Between round brackets, perhaps with a result type.
  | paren (tokens : List Tree)

structure Segment where
  name : Ident
  arguments : Arguments := .none

-- A path, with the tokens of its leading `::` if it has one.
structure Path where
  leading : List Tree := []
  first : Segment
  rest : List Segment := []

namespace Arguments

-- Whether there is nothing between the angle brackets, or no brackets at all.
def isEmpty : Arguments → Bool
  | .none => true
  | .angle _ _ items _ => items.isEmpty
  | .paren _ => false

def isNone : Arguments → Bool
  | .none => true
  | _ => false

end Arguments

namespace Argument

-- The arguments in the order in which they are printed: lifetimes first.
def ordered (items : List Argument) : List Argument :=
  let (lifetimes, others) := items.partition (·.isLifetime)
  lifetimes ++ others

-- The tokens of arguments in a given order. An argument keeps the comma that was written after it;
-- one without a comma gets one if another argument follows.
def listTokens : List Argument → List Tree
  | [] => []
  | [a] => a.tokens ++ a.comma
  | a :: b :: rest =>
    a.tokens ++ (if a.comma.isEmpty then Tree.operator {} [','] else a.comma) ++
      listTokens (b :: rest)

end Argument

def Arguments.tokens : Arguments → List Tree
  | .none => []
  | .angle turbofish start items stop =>
    turbofish ++ start ++ Argument.listTokens (Argument.ordered items) ++ stop
  | .paren tokens => tokens

def Segment.tokens (s : Segment) : List Tree :=
  .ident s.name :: s.arguments.tokens

namespace Path

-- The tokens between two segments.
def separator : List Tree := Tree.operator {} [':', ':']

def segments (p : Path) : List Segment :=
  p.first :: p.rest

def last (p : Path) : Segment :=
  p.rest.getLast?.getD p.first

def tokens (p : Path) : List Tree :=
  p.leading ++ p.first.tokens ++ p.rest.flatMap fun s => separator ++ s.tokens

-- Gives the last segment these arguments.
def withLastArguments (p : Path) (arguments : Arguments) : Path :=
  match p.rest.reverse with
  | [] => { p with first := { p.first with arguments } }
  | s :: before => { p with rest := (({ s with arguments } : Segment) :: before).reverse }

-- The identifier that the whole path is, if it is just one.
def ident? (p : Path) : Option Ident :=
  if p.leading.isEmpty ∧ p.rest.isEmpty ∧ p.first.arguments.isNone then some p.first.name else none

def isPlain (p : Path) : Bool :=
  p.segments.all (·.arguments.isNone)

-- The names of the segments joined by `::`, with a leading `::` if there is one.
def joinedNames (p : Path) : String :=
  (if p.leading.isEmpty then "" else "::") ++ "::".intercalate (p.segments.map (·.name.text))

def ofIdent (name : Ident) : Path :=
  { first := { name } }

end Path

end Lifecycle
