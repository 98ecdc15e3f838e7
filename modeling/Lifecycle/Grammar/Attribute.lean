import Lifecycle.Grammar.Expr

namespace Lifecycle

open Text

-- What an attribute says: its path, alone, with tokens in brackets, or with a value.
inductive Meta where
  | path (path : Path)
  | list (path : Path) (delimiter : Delimiter) (body : List Tree) (start stop : Position)
  | nameValue (path : Path) (eq : List Tree) (value : Expr)

namespace Meta

def head : Meta → Path
  | .path p => p
  | .list p _ _ _ _ => p
  | .nameValue p _ _ => p

-- The tokens between the square brackets.
def tokens : Meta → List Tree
  | .path p => p.tokens
  | .list p d body start stop => p.tokens ++ [.group d body start stop]
  | .nameValue p eq value => p.tokens ++ eq ++ value.tokens

end Meta

-- An attribute. An inner one stands inside what it describes and has a mark after its hash.
structure Attribute where
  hash : List Tree
  mark : List Tree
  start : Position
  stop : Position
  content : Meta

namespace Attribute

-- Whether the attribute stands inside what it describes.
def isInner (a : Attribute) : Bool := !a.mark.isEmpty

def tokens (a : Attribute) : List Tree :=
  a.hash ++ a.mark ++ [.group .bracket a.content.tokens a.start a.stop]

def listTokens (attributes : List Attribute) : List Tree :=
  attributes.flatMap tokens

end Attribute

end Lifecycle
