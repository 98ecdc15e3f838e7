import Lifecycle.Text.Quoted
import Lifecycle.Token

namespace Lifecycle.Code

def word (name : String) : List Tree := [Tree.word name]

def op1 (a : Char) : List Tree := Tree.operator {} [a]

def op2 (a b : Char) : List Tree := Tree.operator {} [a, b]

def lifetime (name : String) : List Tree := [.lifetime name {}]

def quoted (text : String) : List Tree :=
  [.literal (String.ofList (Text.Quoted.quote text.toList)) {}]

-- Code in round brackets.
def parens (body : List Tree) : List Tree := [Tree.grouped .paren body]

-- Code in square brackets.
def brackets (body : List Tree) : List Tree := [Tree.grouped .bracket body]

def braces (body : List Tree) : List Tree := [Tree.grouped .brace body]

-- The separator of path segments.
def colons : List Tree := op2 ':' ':'

-- A lifetime in angle brackets.
def angled (name : String) : List Tree := op1 '<' ++ lifetime name ++ op1 '>'

-- Words joined by `::`.
def joined : List String → List Tree
  | [] => []
  | [w] => word w
  | w :: rest => word w ++ colons ++ joined rest

-- A statement that does nothing with a variable, so that it counts as used.
def discard (name : String) : List Tree :=
  word "let" ++ word "_" ++ op1 '=' ++ word name ++ op1 ';'

end Lifecycle.Code
