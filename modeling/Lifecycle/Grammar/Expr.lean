import Lifecycle.Grammar.Ty
import Lifecycle.Token.Literal.Value

namespace Lifecycle

-- The outermost form of an expression.
inductive ExprForm where
  | literal (value : Literal)
  | path (qself : Option QualifiedSelf) (path : Path)
  -- Two operands; `comparison` if the operator compares.
  | binary (comparison : Bool)
  | range
  -- A call of a `!` form, with the brackets of its input.
  | bang (delimiter : Delimiter)
  | block | constBlock | unsafeBlock | tryBlock | ifThen | matching | whileLoop | forLoop | loop
  | array | assign | async | await | breaking | call | cast | closure | continuing
  | field | index | infer | letting | methodCall | paren | rawAddress | reference | repeating
  | returning | record | trying | tuple | unary | verbatim | yielding
deriving Inhabited

structure Expr where
  form : ExprForm
  tokens : List Tree
deriving Inhabited

namespace ExprForm

-- Whether the form ends with a block, so that a match arm needs no comma after it.
def isBlockLike : ExprForm → Bool
  | .block | .constBlock | .unsafeBlock | .tryBlock | .ifThen | .matching | .whileLoop | .forLoop
  | .loop => true
  | _ => false

-- Whether the form stands as a statement without a semicolon.
def isStatement : ExprForm → Bool
  | .bang .brace => true
  | form => form.isBlockLike

-- What the form is called in the messages about attribute arguments.
def label : ExprForm → String
  | .literal _ => "lit"
  | .path _ _ => "path"
  | .binary _ => "binary"
  | .range => "range"
  | .bang _ => "macro"
  | .block => "block"
  | .constBlock => "const"
  | .unsafeBlock => "unsafe"
  | .tryBlock => "try_block"
  | .ifThen => "if"
  | .matching => "match"
  | .whileLoop => "while"
  | .forLoop => "for_loop"
  | .loop => "loop"
  | .array => "array"
  | .assign => "assign"
  | .async => "async"
  | .await => "await"
  | .breaking => "break"
  | .call => "call"
  | .cast => "cast"
  | .closure => "closure"
  | .continuing => "continue"
  | .field => "field"
  | .index => "index"
  | .infer => "infer"
  | .letting => "let"
  | .methodCall => "method_call"
  | .paren => "paren"
  | .rawAddress => "unknown"
  | .reference => "reference"
  | .repeating => "repeat"
  | .returning => "return"
  | .record => "struct"
  | .trying => "try"
  | .tuple => "tuple"
  | .unary => "unary"
  | .verbatim => "verbatim"
  | .yielding => "yield"

end ExprForm

namespace Expr

-- An expression with attributes in front of it.
def withAttributes (attributes : List Tree) (e : Expr) : Expr :=
  { e with tokens := attributes ++ e.tokens }

@[simp] theorem form_withAttributes (attributes : List Tree) (e : Expr) :
    (e.withAttributes attributes).form = e.form :=
  rfl

end Expr

end Lifecycle
