namespace Lifecycle.Text

-- A place in a text. The default is the place of whatever was not read from a text.
structure Position where
  line : Nat := 1
  column : Nat := 0
deriving DecidableEq, Repr, Inhabited

namespace Position

-- The place after one more character.
def step (p : Position) (c : Char) : Position :=
  if c = '\n' then { line := p.line + 1, column := 0 } else { p with column := p.column + 1 }

-- The place after some more characters.
def advance (p : Position) (cs : List Char) : Position :=
  cs.foldl step p

@[simp] theorem advance_nil (p : Position) : p.advance [] = p := rfl

end Position

end Lifecycle.Text
