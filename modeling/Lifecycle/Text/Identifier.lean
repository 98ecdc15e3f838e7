import Lifecycle.Text.IdentifierTable

namespace Lifecycle.Text

-- Whether a character may start an identifier.
def isIdentifierStart (c : Char) : Bool :=
  if c.toNat < 0x80 then c.isAlpha || c == '_' else inRanges identifierStartRanges c.toNat

-- Whether a character may stand after the first one of an identifier.
def isIdentifierRest (c : Char) : Bool :=
  if c.toNat < 0x80 then c.isAlphanum || c == '_'
  else inRanges identifierStartRanges c.toNat || inRanges identifierRestRanges c.toNat

theorem isIdentifierRest_of_start {c : Char} (h : isIdentifierStart c = true) :
    isIdentifierRest c = true := by
  unfold isIdentifierStart at h
  unfold isIdentifierRest
  split at h <;> simp_all [Char.isAlphanum]
  rcases h with h | h <;> simp [h]

-- Whether a whole text is one identifier without a raw marker.
def isIdentifier : List Char → Bool
  | [] => false
  | c :: cs => isIdentifierStart c && cs.all isIdentifierRest

-- The length of the identifier that a text starts with, zero if there is none.
def identifierLength : List Char → Nat
  | [] => 0
  | c :: cs => if isIdentifierStart c then (cs.takeWhile isIdentifierRest).length + 1 else 0

end Lifecycle.Text
