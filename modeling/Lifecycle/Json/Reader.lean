import Lifecycle.Json.Numeral

namespace Lifecycle.Json

-- A reader from left to right, which fails at the first thing that is wrong, of values of type `α`.
abbrev Reader (α : Type) := StateT (List Char) (Except Fault) α

-- What may stand between the parts of a text.
def isBlank (c : Char) : Bool :=
  c == ' ' || c == '\n' || c == '\t' || c == '\r'

-- The value of a digit in base sixteen.
def hexValue? (c : Char) : Option Nat :=
  if c.isDigit then some (c.toNat - 48)
  else if 'a' ≤ c ∧ c ≤ 'f' then some (c.toNat - 87)
  else if 'A' ≤ c ∧ c ≤ 'F' then some (c.toNat - 55)
  else none

-- Whether a text has fewer than four bytes.
def isShort (cs : List Char) : Bool :=
  (cs.take 4).foldl (fun size c => size + c.utf8Size) 0 < 4

-- The four digits of an escape.
def unit? (cs : List Char) : Except Fault Nat :=
  if isShort cs then .error .truncated
  else
    match (cs.take 4).mapM hexValue? with
    | some [a, b, c, d] => .ok (((a * 16 + b) * 16 + c) * 16 + d)
    | _ => .error .malformed

-- The second half of a character that takes two escapes.
def lowUnit? (cs : List Char) : Except Fault Nat :=
  match cs with
  | [] => .error .truncated
  | ['\\'] => .error .truncated
  | '\\' :: 'u' :: rest => do
    let low ← unit? rest
    if 0xdc00 ≤ low ∧ low ≤ 0xdfff then return low else throw .malformed
  | _ => .error .malformed

-- The character of an escape `\u`, from after it, and how many characters it takes there. A
-- character outside the basic plane takes two escapes. If nobody asks for the text, each escape
-- counts by itself.
def unicodeEscape (asked : Bool) (cs : List Char) : Except Fault (Char × Nat) := do
  let high ← unit? cs
  if !asked then return ('?', 4)
  if 0xdc00 ≤ high ∧ high ≤ 0xdfff then throw .malformed
  if high < 0xd800 ∨ 0xdbff < high then return (Char.ofNat high, 4)
  let low ← lowUnit? (cs.drop 4)
  return (Char.ofNat ((high - 0xd800) * 0x400 + (low - 0xdc00) + 0x10000), 10)

-- The character that a letter stands for after a backslash.
def escapedChar? (c : Char) : Option Char :=
  if c = '\x22' ∨ c = '\\' ∨ c = '/' then some c
  else if c = 'b' then some '\x08'
  else if c = 'f' then some '\x0c'
  else if c = 'n' then some '\n'
  else if c = 'r' then some '\r'
  else if c = 't' then some '\t'
  else none

-- The first character of the rest of a quoted text and how many characters spell it; nothing at
-- the closing quote.
def firstChar (asked : Bool) (cs : List Char) : Except Fault (Option (Char × Nat)) :=
  match cs with
  | [] => .error .truncated
  | '\x22' :: _ => .ok none
  | ['\\'] => .error .truncated
  | '\\' :: 'u' :: rest => do
    let (c, n) ← unicodeEscape asked rest
    return some (c, n + 2)
  | '\\' :: e :: _ =>
    match escapedChar? e with
    | some c => .ok (some (c, 2))
    | none => .error .malformed
  | c :: _ => if c.toNat < 0x20 then .error .malformed else .ok (some (c, 1))

-- The rest of a quoted text of at most `fuel` characters, and what follows it.
def unquoteWithin (asked : Bool) : Nat → List Char → Except Fault (List Char × List Char)
  | 0, _ => .error .truncated
  | fuel + 1, cs =>
    match firstChar asked cs with
    | .error f => .error f
    | .ok none => .ok ([], cs.drop 1)
    | .ok (some (c, n)) =>
      (unquoteWithin asked fuel (cs.drop n)).map fun (chars, rest) => (c :: chars, rest)

-- A quoted text from after its opening quote, and what follows it.
def unquote (asked : Bool) (cs : List Char) : Except Fault (List Char × List Char) :=
  unquoteWithin asked (cs.length + 1) cs

namespace Reader

-- The next character that is not blank; it is not taken.
def peek : Reader (Option Char) := do
  modify fun cs => cs.dropWhile isBlank
  return (← get).head?

-- The next character that is not blank, which must be there.
def peekChar : Reader Char := do
  match ← peek with
  | some c => return c
  | none => throw .truncated

-- Takes the next character.
def skip : Reader Unit :=
  modify fun cs => cs.drop 1

-- A quoted text from after its opening quote.
def quoted (asked : Bool) : Reader String := fun cs => do
  let (chars, rest) ← unquote asked cs
  return (String.ofList chars, rest)

-- A number. One that breaks off is at fault for `atEnd`.
def numeral (atEnd : Fault) : Reader Numeral :=
  Numeral.read atEnd

def exactly : List Char → Reader Unit
  | [] => return ()
  | c :: cs => do
    match (← get).head? with
    | none => throw .truncated
    | some d => if c = d then skip; exactly cs else throw .malformed

-- A whole value or name: `null`, `true` or `false`, whichever starts with this character.
def name (c : Char) : Reader Unit :=
  exactly (if c = 'n' then ['n', 'u', 'l', 'l'] else if c = 't' then ['t', 'r', 'u', 'e']
    else ['f', 'a', 'l', 's', 'e'])

-- Whether a character starts `null`, `true` or `false`.
def startsName (c : Char) : Bool := c == 'n' || c == 't' || c == 'f'

-- Whether a character starts a number.
def startsNumber (c : Char) : Bool := c == '-' || c.isDigit

-- Fails at a value of another kind than the one that is asked for, once it is known to be a value:
-- a list is one from its first character on.
def otherKind {α : Type} (c : Char) : Reader α := do
  if startsName c then
    name c
    throw .mismatch
  else if startsNumber c then
    if (← numeral .truncated).isOutOfRange then throw .malformed else throw .mismatch
  else if c = '\x22' then
    skip
    let _ ← quoted true
    throw .mismatch
  else if c = '[' ∨ c = '\x7b' then throw .mismatch
  else throw .malformed

-- What is expected next in a part that nobody asks for.
inductive Expected where
  | value
  -- The first item of an array, or its end.
  | firstItem
  -- The first key of an object, or its end.
  | firstKey
  | key
  -- What may follow a value.
  | next

-- Skips a key and the colon after it.
def skipKey : Reader Unit := do
  if (← peekChar) ≠ '\x22' then throw .malformed
  skip
  let _ ← quoted false
  if (← peekChar) ≠ ':' then throw .malformed
  skip

-- Skips the start of a value: all of it, or its opening bracket.
def skipValue (stack : List Char) : Reader (Expected × List Char) := do
  let c ← peekChar
  if startsName c then
    name c
    return (.next, stack)
  else if startsNumber c then
    let _ ← numeral .malformed
    return (.next, stack)
  else if c = '\x22' then
    skip
    let _ ← quoted false
    return (.next, stack)
  else if c = '[' then
    skip
    return (.firstItem, ']' :: stack)
  else if c = '\x7b' then
    skip
    return (.firstKey, '\x7d' :: stack)
  else throw .malformed

-- One step through a part that nobody asks for. The stack holds the brackets that are still to be
-- closed.
def skipStep : Expected → List Char → Reader (Expected × List Char)
  | .value, stack => skipValue stack
  | .key, stack => do
    skipKey
    return (.value, stack)
  | .firstItem, stack => do
    if (← peek) = some ']' then
      skip
      return (.next, stack.drop 1)
    else skipValue stack
  | .firstKey, stack => do
    if (← peek) = some '\x7d' then
      skip
      return (.next, stack.drop 1)
    else
      skipKey
      return (.value, stack)
  | .next, stack => do
    let c ← peekChar
    if c = ',' then
      skip
      return (if stack.head? = some ']' then .value else .key, stack)
    else if stack.head? = some c then
      skip
      return (.next, stack.drop 1)
    else throw .malformed

-- Skips a part in at most so many steps.
def skipWithin : Nat → Expected → List Char → Reader Unit
  | _, .next, [] => return ()
  | 0, _, _ => throw .truncated
  | fuel + 1, expected, stack => do
    let (expected, stack) ← skipStep expected stack
    skipWithin fuel expected stack

def ignored : Reader Unit := do
  skipWithin ((← get).length + 1) .value []

-- Whether another item of an array follows. A comma in front of it is taken.
def hasItem (first : Bool) : Reader Bool := do
  let c ← peekChar
  if c = ']' then return false
  else if first then return true
  else if c = ',' then
    skip
    if (← peekChar) = ']' then throw .malformed else return true
  else throw .malformed

def endArray : Reader Unit := do
  if (← peekChar) = ']' then skip else throw .malformed

-- Whether another key of an object follows. A comma in front of it is taken.
def hasKey (first : Bool) : Reader Bool := do
  let c ← peekChar
  if c = '\x7d' then return false
  else if first then
    if c = '\x22' then return true else throw .malformed
  else if c = ',' then
    skip
    if (← peekChar) = '\x22' then return true else throw .malformed
  else throw .malformed

-- The colon after a key.
def colon : Reader Unit := do
  if (← peekChar) = ':' then skip else throw .malformed

-- The items of an array, of which there are fewer than `fuel`.
def itemsWithin {α : Type} (item : Reader α) : Nat → Bool → Reader (List α)
  | 0, _ => throw .truncated
  | fuel + 1, first => do
    if ← hasItem first then return (← item) :: (← itemsWithin item fuel false)
    else return []

-- An array, from its opening bracket on.
def array {α : Type} (item : Reader α) : Reader (List α) := do
  skip
  let items ← itemsWithin item ((← get).length + 1) true
  endArray
  return items

end Reader

end Lifecycle.Json
