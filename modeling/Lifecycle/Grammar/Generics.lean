import Lifecycle.Grammar.Path

namespace Lifecycle

-- The generic parameters of a declaration.
structure Generics where
  start : List Tree := []
  params : List Argument := []
  stop : List Tree := []

namespace Generics

-- The tokens of generic parameters; empty brackets are not printed.
def tokens (g : Generics) : List Tree :=
  if g.params.isEmpty then [] else g.start ++ Argument.listTokens (Argument.ordered g.params) ++ g.stop

def isWritten (g : Generics) : Bool := !g.start.isEmpty

end Generics

-- A where clause, which is printed only if it holds something.
structure WhereClause where
  keyword : List Tree := []
  predicates : List Tree := []

namespace WhereClause

def tokens (w : WhereClause) : List Tree :=
  if w.predicates.isEmpty then [] else w.keyword ++ w.predicates

def isWritten (w : WhereClause) : Bool := !w.keyword.isEmpty

end WhereClause

end Lifecycle
