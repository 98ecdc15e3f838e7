import Lifecycle.Grammar.Attribute
import Lifecycle.Grammar.Generics
import Lifecycle.Grammar.Ty

namespace Lifecycle

open Text

-- The parameter that stands for the object a method is called on.
structure SelfParam where
  attributes : List Attribute
  -- The mark of a reference, if it is one.
  mark : List Tree
  lifetime : List Tree
  mutable : List Tree
  selfWord : List Tree
  -- A colon and the type, if they were written.
  annotation : List Tree

namespace SelfParam

def tokens (p : SelfParam) : List Tree :=
  Attribute.listTokens p.attributes ++ p.mark ++ p.lifetime ++ p.mutable ++ p.selfWord ++ p.annotation

-- Whether the object is taken by reference, without a type of its own.
def isPlainReference (p : SelfParam) : Bool :=
  !p.mark.isEmpty && p.annotation.isEmpty

end SelfParam

inductive Param where
  | receiver (p : SelfParam)
  -- A parameter with its type, and the tokens up to the colon before it.
  | typed (before : List Tree) (ty : Ty)

namespace Param

def tokens : Param → List Tree
  | .receiver p => p.tokens
  | .typed before ty => before ++ ty.tokens

-- The type of a parameter that is not the receiver.
def ty? : Param → Option Ty
  | .receiver _ => none
  | .typed _ ty => some ty

end Param

structure Signature where
  constWord : List Tree
  asyncWord : List Tree
  unsafeWord : List Tree
  abi : List Tree
  fnWord : List Tree
  name : Ident
  generics : Generics
  -- The round brackets.
  start : Position
  stop : Position
  -- The parameters, each with the comma after it.
  params : List (Param × List Tree)
  -- The parameter that takes any number of values, if there is one.
  variadic : List Tree
  -- The arrow and the result type.
  output : Option (List Tree × Ty)
  whereClause : WhereClause

namespace Signature

-- The tokens between the round brackets.
def paramTokens (s : Signature) : List Tree :=
  let params := s.params.flatMap fun (p, comma) => p.tokens ++ comma
  let needsComma := match s.params.getLast? with
    | some (_, comma) => comma.isEmpty && !s.variadic.isEmpty
    | none => false
  params ++ (if needsComma then Tree.operator {} [','] else []) ++ s.variadic

def tokens (s : Signature) : List Tree :=
  let output := match s.output with
    | some (arrow, ty) => arrow ++ ty.tokens
    | none => []
  s.constWord ++ s.asyncWord ++ s.unsafeWord ++ s.abi ++ s.fnWord ++ [.ident s.name] ++
    s.generics.tokens ++ [.group .paren s.paramTokens s.start s.stop] ++ output ++
    s.whereClause.tokens

-- The receiver, if the first parameter is one.
def receiver? (s : Signature) : Option SelfParam :=
  match s.params with
  | (.receiver p, _) :: _ => some p
  | _ => none

-- The types of the parameters that are not the receiver.
def paramTys (s : Signature) : List Ty :=
  s.params.filterMap fun (p, _) => p.ty?

end Signature

-- A method with a body.
structure Method where
  -- The attributes in front of the method, then those at the start of its body.
  attributes : List Attribute
  visibility : List Tree
  defaultWord : List Tree
  signature : Signature
  -- The tokens of the statements, without attributes.
  body : List Tree
  start : Position
  stop : Position

def Method.tokens (m : Method) : List Tree :=
  let (inner, outer) := m.attributes.partition (·.isInner)
  Attribute.listTokens outer ++ m.visibility ++ m.defaultWord ++ m.signature.tokens ++
    [.group .brace (Attribute.listTokens inner ++ m.body) m.start m.stop]

-- An item of an implementation block.
inductive ImplItem where
  | method (m : Method)
  | other (tokens : List Tree)

def ImplItem.tokens : ImplItem → List Tree
  | .method m => m.tokens
  | .other ts => ts

-- The trait that a block implements.
structure ImplTrait where
  -- The mark of a negative implementation.
  negative : List Tree
  path : Path
  forWord : List Tree

structure ImplBlock where
  -- The attributes in front of the block, then those at the start of its body.
  attributes : List Attribute
  defaultWord : List Tree
  unsafeWord : List Tree
  implWord : List Tree
  generics : Generics
  trait : Option ImplTrait
  selfTy : Ty
  whereClause : WhereClause
  start : Position
  stop : Position
  items : List ImplItem

namespace ImplBlock

-- The tokens in front of the braces.
def header (b : ImplBlock) : List Tree :=
  let outer := b.attributes.filter (!·.isInner)
  let traitTokens := match b.trait with
    | some t => t.negative ++ t.path.tokens ++ t.forWord
    | none => []
  Attribute.listTokens outer ++ b.defaultWord ++ b.unsafeWord ++ b.implWord ++ b.generics.tokens ++
    traitTokens ++ b.selfTy.tokens ++ b.whereClause.tokens

def tokens (b : ImplBlock) : List Tree :=
  let inner := b.attributes.filter (·.isInner)
  b.header ++
    [.group .brace (Attribute.listTokens inner ++ b.items.flatMap (·.tokens)) b.start b.stop]

end ImplBlock

end Lifecycle
