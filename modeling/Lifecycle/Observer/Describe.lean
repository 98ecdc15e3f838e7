import Lifecycle.Declaration
import Lifecycle.Grammar.Ty

namespace Lifecycle

open Text

namespace Bound

-- The names of the traits among some bounds.
def traitNames (bounds : List (Bound × List Tree)) : List String :=
  bounds.filterMap fun (b, _) => b.traitName?

end Bound

-- The type of an object of some traits.
def NamedType.ofTraits (traits : List String) : NamedType :=
  { name := "dyn " ++ " + ".intercalate traits
    capabilities := match traits with
      | [single] => NameSet.empty.insert single
      | _ => .empty }

-- The canonical name of a type and its capabilities.
def Ty.describe : Ty → NamedType
  | .paren elem _ _ => elem.describe
  | .invisible elem => elem.describe
  | .reference _ _ mutable elem =>
    let inner := elem.describe
    if mutable.isEmpty then { inner with name := "&" ++ inner.name }
    else { name := "&mut " ++ inner.name }
  | .traitObject _ bounds => .ofTraits (Bound.traitNames bounds)
  | .path none p =>
    if p.last.arguments.isEmpty then { name := p.last.name.text } else { name := Tree.text p.tokens }
  | t => { name := Tree.text t.tokens }

end Lifecycle
