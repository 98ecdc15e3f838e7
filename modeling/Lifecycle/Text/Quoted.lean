import Lifecycle.Text.PrintableTable

namespace Lifecycle.Text.Quoted

-- Digits of a number in base sixteen, lower case, without leading zeros.
def hexDigits (n : Nat) : List Char :=
  Nat.toDigits 16 n

-- The escape `\u{…}` of a character.
def unicodeEscape (c : Char) : List Char :=
  ['\\', 'u', '\x7b'] ++ hexDigits c.toNat ++ ['\x7d']

-- Whether a character is shown as it is.
def isPrinted (c : Char) : Bool :=
  if c.toNat < 0x7f then 0x20 ≤ c.toNat
  else !inRanges unprintableRanges c.toNat && !inRanges graphemeExtendRanges c.toNat

-- A NUL is `\0`, unless an octal digit follows, which would seem to belong to it.
def nulEscape : List Char → List Char
  | next :: _ => if '0' ≤ next ∧ next ≤ '7' then ['\\', 'x', '0', '0'] else ['\\', '0']
  | [] => ['\\', '0']

-- One character inside the quotes, given the characters after it.
def escapeChar (c : Char) (rest : List Char) : List Char :=
  if c = '\x00' then nulEscape rest
  else if c = '\t' then ['\\', 't']
  else if c = '\r' then ['\\', 'r']
  else if c = '\n' then ['\\', 'n']
  else if c = '\\' ∨ c = '\x22' then ['\\', c]
  else if isPrinted c then [c]
  else unicodeEscape c

-- The inside of a quoted text.
def escape : List Char → List Char
  | [] => []
  | c :: rest => escapeChar c rest ++ escape rest

-- A text between quotes.
def quote (text : List Char) : List Char :=
  '\x22' :: escape text ++ ['\x22']

end Lifecycle.Text.Quoted
