import Lifecycle.Text.Blank
import Lifecycle.Token.Literal

namespace Lifecycle

open Text

-- A literal by its kind.
inductive Literal where
  | str (value : List Char) (suffix : List Char)
  | byteStr
  | cStr
  | byte
  | char
  | int (value : Nat) (suffix : List Char)
  | float
  | bool (value : Bool)
  -- The mark of a literal that could not be written.
  | broken
deriving DecidableEq, Repr

namespace Literal

-- How far the value of a string with escapes has been computed.
inductive Decoding where
  | body
  | carriage
  | escape
  | hexHigh
  | hexLow (high : Nat)
  | unicodeOpen
  | unicode (value : Nat)
  | skipping
  | finished

-- The character that a one-letter escape stands for.
def escapedChar (c : Char) : Char :=
  if c = 'n' then '\n' else if c = 'r' then '\r' else if c = 't' then '\t'
  else if c = '0' then '\x00' else c

-- One character outside an escape.
def Decoding.stepBody (c : Char) : Decoding × List Char :=
  if c = '\x22' then (.finished, [])
  else if c = '\\' then (.escape, [])
  else if c = '\r' then (.carriage, [])
  else (.body, [c])

-- One character of the spelling, and what it adds to the value.
def Decoding.step : Decoding → Char → Decoding × List Char
  | .body, c => stepBody c
  | .carriage, _ => (.body, ['\n'])
  | .escape, c =>
    if c = 'x' then (.hexHigh, [])
    else if c = 'u' then (.unicodeOpen, [])
    else if c = '\n' ∨ c = '\r' then (.skipping, [])
    else (.body, [escapedChar c])
  | .hexHigh, c => (.hexLow ((hexValue? c).getD 0), [])
  | .hexLow high, c => (.body, [Char.ofNat (high * 16 + (hexValue? c).getD 0)])
  | .unicodeOpen, _ => (.unicode 0, [])
  | .unicode value, c =>
    if c = '\x7d' then (.body, [Char.ofNat value])
    else
      match hexValue? c with
      | some v => (.unicode (value * 16 + v), [])
      | none => (.unicode value, [])
  | .skipping, c => if isWhiteSpace c then (.skipping, []) else stepBody c
  | .finished, _ => (.finished, [])

-- The value of a string with escapes, from after its opening quote.
def decode : Decoding → List Char → List Char
  | _, [] => []
  | s, c :: cs => (s.step c).2 ++ decode (s.step c).1 cs

-- The text between the first and the last quote.
def rawValue (cs : List Char) : List Char :=
  let inside := (cs.dropWhile (· ≠ '\x22')).drop 1
  ((inside.reverse.dropWhile (· ≠ '\x22')).drop 1).reverse

-- What follows the quotes of a string.
def stringSuffix (cs : List Char) : List Char :=
  ((cs.reverse.takeWhile (· ≠ '\x22')).reverse).dropWhile (· = '#')

-- Whether the text after an exponent mark makes the number a fraction: a sign, or a digit that
-- only an allowed suffix follows.
def isExponent : Bool → List Char → Bool
  | digit, [] => digit
  | digit, c :: cs =>
    if c = '_' then isExponent digit cs
    else if c = '-' ∨ c = '+' then true
    else if c.isDigit then isExponent true cs
    else digit && isIdentifier (c :: cs)

-- The value of the digits and the suffix after them, unless the number is a fraction.
def intDigits (base : Nat) : Nat → Bool → List Char → Option (Nat × List Char)
  | value, digit, [] => if digit then some (value, []) else none
  | value, digit, c :: cs =>
    if c = '_' then intDigits base value digit cs
    else if base = 10 ∧ c = '.' then none
    else if base = 10 ∧ (c = 'e' ∨ c = 'E') ∧ isExponent false cs then none
    else
      match (if c.isDigit ∨ 10 < base then hexValue? c else none) with
      | some v =>
        if v < base then intDigits base (value * base + v) true cs else none
      | none => if digit then some (value, c :: cs) else none

-- The value and suffix of a number that is no fraction.
def intParts (cs : List Char) : Option (Nat × List Char) :=
  let parts :=
    match cs with
    | '0' :: 'x' :: rest => intDigits 16 0 false rest
    | '0' :: 'o' :: rest => intDigits 8 0 false rest
    | '0' :: 'b' :: rest => intDigits 2 0 false rest
    | _ => intDigits 10 0 false cs
  match parts with
  | some (v, suffix) => if suffix.isEmpty ∨ isIdentifier suffix then some (v, suffix) else none
  | none => none

def ofChars : List Char → Literal
  | '\x22' :: cs => .str (decode .body cs) (stringSuffix cs)
  | 'r' :: cs => .str (rawValue cs) (stringSuffix cs)
  | 'b' :: '\x27' :: _ => .byte
  | 'b' :: _ => .byteStr
  | 'c' :: _ => .cStr
  | '\x27' :: _ => .char
  | '(' :: _ => .broken
  | cs =>
    match intParts cs with
    | some (v, s) => .int v s
    | none => .float

-- What the kind of a literal is called in the messages about attribute arguments.
def kind : Literal → String
  | .str _ _ => "string"
  | .byteStr => "byte string"
  | .cStr => "unknown"
  | .byte => "byte"
  | .char => "char"
  | .int _ _ => "int"
  | .float => "float"
  | .bool _ => "bool"
  | .broken => "verbatim"

def ofText (text : String) : Literal :=
  ofChars text.toList

end Literal

end Lifecycle
