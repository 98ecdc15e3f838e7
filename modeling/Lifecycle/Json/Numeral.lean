import Lifecycle.Json

namespace Lifecycle.Json

-- Why a text cannot be read.
inductive Fault where
  -- It ends too early.
  | truncated
  -- It is no JSON.
  | malformed
  -- It does not have the shape that is asked for.
  | mismatch
deriving DecidableEq, Repr

-- The spelling of a number.
structure Numeral where
  negative : Bool
  whole : List Char
  -- The digits after the point, if there is one.
  fraction : Option (List Char)
  exponent : Option Int

namespace Numeral

-- The exponent after its mark.
def readExponent (atEnd : Fault) (cs : List Char) : Except Fault (Int × List Char) :=
  let (negative, cs) := match cs with
    | '+' :: rest => (false, rest)
    | '-' :: rest => (true, rest)
    | _ => (false, cs)
  match cs with
  | [] => .error atEnd
  | c :: _ =>
    if c.isDigit then
      let value : Int := Nat.ofDigitChars 10 (cs.takeWhile Char.isDigit) 0
      .ok (if negative then -value else value, cs.dropWhile Char.isDigit)
    else .error .malformed

-- What may follow the digits of a number or of its fraction: an exponent.
def readTail (atEnd : Fault) (n : Numeral) (cs : List Char) : Except Fault (Numeral × List Char) :=
  match cs with
  | c :: rest =>
    if c = 'e' ∨ c = 'E' then do
      let (exponent, rest) ← readExponent atEnd rest
      return ({ n with exponent := some exponent }, rest)
    else .ok (n, cs)
  | [] => .ok (n, cs)

-- The rest of a number after its whole part.
def readFraction (atEnd : Fault) (n : Numeral) (cs : List Char) :
    Except Fault (Numeral × List Char) :=
  match cs with
  | '.' :: rest =>
    match rest with
    | [] => .error atEnd
    | c :: _ =>
      if c.isDigit then
        readTail atEnd { n with fraction := some (rest.takeWhile Char.isDigit) }
          (rest.dropWhile Char.isDigit)
      else .error .malformed
  | _ => readTail atEnd n cs

-- A number without its sign.
def readUnsigned (atEnd : Fault) (negative : Bool) (cs : List Char) :
    Except Fault (Numeral × List Char) :=
  match cs with
  | [] => .error atEnd
  | c :: rest =>
    if !c.isDigit then .error .malformed
    else if c = '0' then
      match rest with
      | d :: _ =>
        if d.isDigit then .error .malformed
        else readFraction atEnd ⟨negative, ['0'], none, none⟩ rest
      | [] => readFraction atEnd ⟨negative, ['0'], none, none⟩ rest
    else
      readFraction atEnd ⟨negative, cs.takeWhile Char.isDigit, none, none⟩
        (cs.dropWhile Char.isDigit)

-- A number; `atEnd` is what is wrong with one that breaks off.
def read (atEnd : Fault) (cs : List Char) : Except Fault (Numeral × List Char) :=
  match cs with
  | '-' :: rest => readUnsigned atEnd true rest
  | _ => readUnsigned atEnd false cs

-- The greatest number whose digits are all kept.
def keptMax : Nat := UInt64.size - 1

-- The digits of the whole part that are kept, as a number, and how many were not.
def keepWhole (digits : List Char) : Nat × Nat :=
  digits.foldl (fun (kept, dropped) c =>
    let next := kept * 10 + (c.toNat - 48)
    if dropped = 0 ∧ next ≤ keptMax then (next, 0) else (kept, dropped + 1)) (0, 0)

-- The digits kept after some of the fraction have been added, and how many were added.
def keepFraction (kept : Nat) (digits : List Char) : Nat × Nat :=
  let (kept, added, _) := digits.foldl (fun (kept, added, more) c =>
    let next := kept * 10 + (c.toNat - 48)
    if more && next ≤ keptMax then (next, added + 1, true) else (kept, added, false))
    (kept, 0, true)
  (kept, added)

-- The nearest number with 53 binary digits, the even one of two.
def round53 (n : Nat) : Nat :=
  let shift := n.log2 + 1 - 53
  let unit := Nat.pow 2 shift
  let (q, r) := (n / unit, n % unit)
  if unit < 2 * r ∨ (unit = 2 * r ∧ q % 2 = 1) then (q + 1) * unit else q * unit

-- Where the range of binary floating point ends.
def rangeEnd : Nat := Nat.pow 2 1024 - Nat.pow 2 970

-- Whether the number is beyond the range of binary floating point.
def isOutOfRange (n : Numeral) : Bool :=
  let (kept, dropped) := keepWhole n.whole
  let (kept, added) := keepFraction kept (n.fraction.getD [])
  let exponent : Int := dropped - added + n.exponent.getD 0
  kept ≠ 0 && (308 < exponent ||
    (0 ≤ exponent && rangeEnd ≤ round53 kept * round53 (Nat.pow 10 exponent.toNat)))

-- The value of a number that is written as a whole one from zero on.
def nat? (n : Numeral) : Option Nat :=
  if n.negative ∨ n.fraction.isSome ∨ n.exponent.isSome then none
  else some (Nat.ofDigitChars 10 n.whole 0)

end Numeral

end Lifecycle.Json
