import Lifecycle.Grammar.Path

namespace Lifecycle

open Text

-- The type in front of a path such as `<T as Trait>::Name`.
structure QualifiedSelf where
  start : List Tree
  ty : List Tree
  -- The word `as` and the trait after it.
  trait : Option (List Tree × Path)
  -- The closing bracket and the `::` after it.
  stop : List Tree

namespace QualifiedSelf

-- The tokens of the type, up to the `::` after it.
def tokens (q : QualifiedSelf) : List Tree :=
  let traitTokens := match q.trait with
    | some (asWord, path) => asWord ++ path.tokens
    | none => []
  q.start ++ q.ty ++ traitTokens ++ q.stop

end QualifiedSelf

-- A bound on a type: a lifetime, a list of captured parameters, a trait, or a form that is kept as
-- it was written.
inductive Bound where
  | lifetime (tokens : List Tree)
  | capture (tokens : List Tree)
  -- A trait, with what stands before its path and the brackets around it.
  | trait (parens : Option (Position × Position)) (before : List Tree) (path : Path)
  | verbatim (tokens : List Tree)

namespace Bound

def tokens : Bound → List Tree
  | .lifetime ts => ts
  | .capture ts => ts
  | .trait none before path => before ++ path.tokens
  | .trait (some (start, stop)) before path => [.group .paren (before ++ path.tokens) start stop]
  | .verbatim ts => ts

-- The name of the trait that a bound asks for.
def traitName? : Bound → Option String
  | .trait _ _ path => some path.last.name.text
  | _ => none

-- Whether the bound asks for a trait.
def isTrait : Bound → Bool
  | .trait _ _ _ => true
  | .verbatim _ => true
  | _ => false

-- The tokens of bounds, each with the plus sign after it.
def listTokens (bounds : List (Bound × List Tree)) : List Tree :=
  bounds.flatMap fun (b, plus) => b.tokens ++ plus

end Bound

inductive Ty where
  -- A type in round brackets.
  | paren (elem : Ty) (start stop : Position)
  -- A type in invisible brackets.
  | invisible (elem : Ty)
  -- A reference, with its lifetime and the word `mut` if they were written.
  | reference (mark : List Tree) (lifetime : List Tree) (mutable : List Tree) (elem : Ty)
  -- An object of traits, with the word `dyn` if it was written.
  | traitObject (dynWord : List Tree) (bounds : List (Bound × List Tree))
  -- A path, perhaps after a qualified self type.
  | path (qself : Option QualifiedSelf) (path : Path)
  -- The empty tuple.
  | unit (start stop : Position)
  -- Any other type.
  | other (tokens : List Tree)

namespace Ty

def tokens : Ty → List Tree
  | .paren elem start stop => [.group .paren elem.tokens start stop]
  | .invisible elem => elem.tokens
  | .reference mark lifetime mutable elem => mark ++ lifetime ++ mutable ++ elem.tokens
  | .traitObject dynWord bounds => dynWord ++ Bound.listTokens bounds
  | .path none p => p.tokens
  | .path (some q) p => q.tokens ++ p.tokens
  | .unit start stop => [.group .paren [] start stop]
  | .other ts => ts

end Ty

end Lifecycle
