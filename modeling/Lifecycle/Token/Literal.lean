import Lifecycle.Text.Identifier

namespace Lifecycle.Literal

open Text

-- What an automaton does with a character.
inductive Verdict (σ : Type) where
  -- Goes on in another state.
  | next (state : σ)
  -- The character is the last one.
  | accept
  -- The character cannot stand here.
  | reject

-- The number of characters an automaton reads until it accepts.
def scan {σ : Type} (step : σ → Char → Verdict σ) : σ → List Char → Option Nat
  | _, [] => none
  | s, c :: cs =>
    match step s c with
    | .next s' => (scan step s' cs).map (· + 1)
    | .accept => some 1
    | .reject => none

-- What a quoted literal holds: characters, bytes, or the characters of a NUL-terminated text.
inductive Flavour where
  | text
  | bytes
  | cText
deriving DecidableEq, Repr

-- Whether a character may stand for itself between the quotes.
def Flavour.allows : Flavour → Char → Bool
  | .text, _ => true
  | .bytes, c => c.toNat < 0x80
  | .cText, c => c.toNat != 0

-- The value of a digit in base sixteen.
def hexValue? (c : Char) : Option Nat :=
  if '0' ≤ c ∧ c ≤ '9' then some (c.toNat - '0'.toNat)
  else if 'a' ≤ c ∧ c ≤ 'f' then some (c.toNat - 'a'.toNat + 10)
  else if 'A' ≤ c ∧ c ≤ 'F' then some (c.toNat - 'A'.toNat + 10)
  else none

-- How far an escape has been read, from after its backslash.
inductive Escape where
  | start
  | hexHigh
  | hexLow (high : Nat)
  | unicodeOpen
  | unicode (digits value : Nat)

-- The characters that stand alone after a backslash.
def isSimpleEscape (f : Flavour) (c : Char) : Bool :=
  c == 'n' || c == 'r' || c == 't' || c == '\\' || c == '\x27' || c == '\x22' ||
    (c == '0' && f != .cText)

-- Reads one character of an escape.
def Escape.step (f : Flavour) : Escape → Char → Verdict Escape
  | .start, c =>
    if c = 'x' then .next .hexHigh
    else if c = 'u' ∧ f ≠ .bytes then .next .unicodeOpen
    else if isSimpleEscape f c then .accept
    else .reject
  | .hexHigh, c =>
    match hexValue? c with
    | some v => if f = .text ∧ 8 ≤ v then .reject else .next (.hexLow v)
    | none => .reject
  | .hexLow high, c =>
    match hexValue? c with
    | some v => if f = .cText ∧ high = 0 ∧ v = 0 then .reject else .accept
    | none => .reject
  | .unicodeOpen, c => if c = '\x7b' then .next (.unicode 0 0) else .reject
  | .unicode digits value, c =>
    if c = '_' ∧ 0 < digits then .next (.unicode digits value)
    else if c = '\x7d' ∧ 0 < digits then
      if value.isValidChar ∧ ¬(f = .cText ∧ value = 0) then .accept else .reject
    else
      match hexValue? c with
      | some v => if digits = 6 then .reject else .next (.unicode (digits + 1) (value * 16 + v))
      | none => .reject

-- How far a string with escapes has been read.
inductive Cooked where
  | body
  -- After a carriage return, which only a line feed may follow.
  | carriage
  | escape (e : Escape)
  -- In the blank text that an escaped line end skips.
  | skipping (afterCarriage : Bool)

-- Reads one character of a string with escapes.
def Cooked.stepBody (f : Flavour) (c : Char) : Verdict Cooked :=
  if c = '\x22' then .accept
  else if c = '\r' then .next .carriage
  else if c = '\\' then .next (.escape .start)
  else if f.allows c then .next .body
  else .reject

-- Reads one character of a string with escapes.
def Cooked.step (f : Flavour) : Cooked → Char → Verdict Cooked
  | .body, c => stepBody f c
  | .carriage, c => if c = '\n' then .next .body else .reject
  | .escape e, c =>
    match e, c with
    | .start, '\n' => .next (.skipping false)
    | .start, '\r' => .next (.skipping true)
    | e, c =>
      match e.step f c with
      | .next e' => .next (.escape e')
      | .accept => .next .body
      | .reject => .reject
  | .skipping true, c => if c = '\n' then .next (.skipping false) else .reject
  | .skipping false, c =>
    if c = ' ' ∨ c = '\t' ∨ c = '\n' then .next (.skipping false)
    else if c = '\r' then .next (.skipping true)
    else stepBody f c

-- How far a raw string has been read.
inductive Raw where
  | body
  | carriage
  -- After a quote and so many of the hashes that close the string.
  | hashes (seen : Nat)

-- Reads one character of a raw string, outside a possible end.
def Raw.stepBody (f : Flavour) (hashes : Nat) (c : Char) : Verdict Raw :=
  if c = '\x22' then if hashes = 0 then .accept else .next (.hashes 0)
  else if c = '\r' then .next .carriage
  else if f.allows c then .next .body
  else .reject

-- Reads one character of a raw string that so many hashes close.
def Raw.step (f : Flavour) (hashes : Nat) : Raw → Char → Verdict Raw
  | .body, c => stepBody f hashes c
  | .carriage, c => if c = '\n' then .next .body else .reject
  | .hashes seen, c =>
    if c = '#' then if seen + 1 = hashes then .accept else .next (.hashes (seen + 1))
    else stepBody f hashes c

-- How far a character literal has been read.
inductive Single where
  | first
  | escape (e : Escape)
  | close

-- Reads one character of a character literal.
def Single.step (f : Flavour) : Single → Char → Verdict Single
  | .first, c =>
    if c = '\\' then .next (.escape .start) else if f.allows c then .next .close else .reject
  | .escape e, c =>
    match e.step f c with
    | .next e' => .next (.escape e')
    | .accept => .next .close
    | .reject => .reject
  | .close, c => if c = '\x27' then .accept else .reject

-- The most hashes that may open a raw string.
def maxHashes : Nat := 255

-- The length of a raw string from after its `r`.
def rawLength (f : Flavour) (cs : List Char) : Option Nat :=
  let hashes := (cs.takeWhile (· == '#')).length
  match cs.drop hashes with
  | '\x22' :: rest =>
    if hashes ≤ maxHashes then (scan (Raw.step f hashes) .body rest).map (· + (hashes + 1)) else none
  | _ => none

-- The length of a string with escapes from after its quote.
def cookedLength (f : Flavour) (cs : List Char) : Option Nat :=
  scan (Cooked.step f) .body cs

-- The length of a quoted literal without its suffix.
def quotedLength : List Char → Option Nat
  | '\x22' :: cs => (cookedLength .text cs).map (· + 1)
  | 'r' :: cs => (rawLength .text cs).map (· + 1)
  | 'b' :: '\x22' :: cs => (cookedLength .bytes cs).map (· + 2)
  | 'b' :: 'r' :: cs => (rawLength .bytes cs).map (· + 2)
  | 'b' :: '\x27' :: cs => (scan (Single.step .bytes) .first cs).map (· + 2)
  | 'c' :: '\x22' :: cs => (cookedLength .cText cs).map (· + 2)
  | 'c' :: 'r' :: cs => (rawLength .cText cs).map (· + 2)
  | '\x27' :: cs => (scan (Single.step .text) .first cs).map (· + 1)
  | _ => none

-- The digits before an exponent: their number, whether they hold a point and whether an exponent
-- mark ended them, which is counted. A point that a second point or a name follows ends no number.
def mantissa : Bool → List Char → Option (Nat × Bool × Bool)
  | point, [] => some (0, point, false)
  | point, c :: cs =>
    if c.isDigit || c == '_' then (mantissa point cs).map fun (n, r) => (n + 1, r)
    else if c = '.' then
      if point then some (0, point, false)
      else if cs.head?.any fun d => d == '.' || isIdentifierStart d then none
      else (mantissa true cs).map fun (n, r) => (n + 1, r)
    else if c = 'e' ∨ c = 'E' then some (1, point, true)
    else some (0, point, false)

-- The sign and digits of an exponent: their number and whether there is a digit. A second sign
-- before the first digit spoils the exponent.
def exponent : Bool → Bool → List Char → Option (Nat × Bool)
  | _, digit, [] => some (0, digit)
  | sign, digit, c :: cs =>
    if c = '+' ∨ c = '-' then
      if digit then some (0, digit)
      else if sign then none
      else (exponent true digit cs).map fun (n, r) => (n + 1, r)
    else if c.isDigit then (exponent sign true cs).map fun (n, r) => (n + 1, r)
    else if c = '_' then (exponent sign digit cs).map fun (n, r) => (n + 1, r)
    else some (0, digit)

-- The length of a number with a point or an exponent. A mark without digits after it is no
-- exponent; the number then ends before it, if it has a point.
def floatLength : List Char → Option Nat
  | [] => none
  | c :: cs =>
    if c.isDigit then
      match mantissa false cs with
      | some (n, point, true) =>
        match exponent false false (cs.drop n) with
        | some (m, true) => some (1 + n + m)
        | _ => if point then some n else none
      | some (n, true, false) => some (1 + n)
      | _ => none
    else none

-- The length of the digits of a whole number, of which one at least is no underscore. A decimal
-- digit that the base lacks spoils the number, a letter ends it.
def digitsLength (base : Nat) : Bool → List Char → Option Nat
  | empty, [] => if empty then none else some 0
  | empty, c :: cs =>
    if c.isDigit then
      if base ≤ c.toNat - '0'.toNat then none else (digitsLength base false cs).map (· + 1)
    else if c = '_' then
      if empty ∧ base = 10 then none else (digitsLength base empty cs).map (· + 1)
    else
      match hexValue? c with
      | some v =>
        if v < base then (digitsLength base false cs).map (· + 1)
        else if empty then none else some 0
      | none => if empty then none else some 0

-- The length of a whole number.
def wholeLength : List Char → Option Nat
  | '0' :: 'x' :: cs => (digitsLength 16 true cs).map (· + 2)
  | '0' :: 'o' :: cs => (digitsLength 8 true cs).map (· + 2)
  | '0' :: 'b' :: cs => (digitsLength 2 true cs).map (· + 2)
  | cs => digitsLength 10 true cs

-- Adds the suffix of a number, after which no name may go on.
def withSuffix (cs : List Char) (n : Nat) : Option Nat :=
  let m := n + identifierLength (cs.drop n)
  if (cs.drop m).head?.any isIdentifierRest then none else some m

-- The length of the literal that a text starts with.
def length? (cs : List Char) : Option Nat :=
  match quotedLength cs with
  | some n => some (n + identifierLength (cs.drop n))
  | none =>
    match (floatLength cs).bind (withSuffix cs) with
    | some n => some n
    | none => (wholeLength cs).bind (withSuffix cs)

end Lifecycle.Literal
