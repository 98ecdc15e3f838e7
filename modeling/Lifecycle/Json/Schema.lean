import Lifecycle.Json.Reader

namespace Lifecycle.Json

inductive Shape where
  -- A whole number below 2³².
  | number
  | text
  | texts

inductive Schema where
  | single (shape : Shape)
  -- One of some names, perhaps as an object that maps it to `null`.
  | choice (names : List String)
  | record (fields : List (String × Shape))

namespace Reader

-- A number below 2³².
def number : Reader Json := do
  let c ← peekChar
  if startsNumber c then
    let n ← numeral .truncated
    if n.isOutOfRange then throw .malformed
    match n.nat? with
    | some value => if value < UInt32.size then return .number value else throw .mismatch
    | none => throw .mismatch
  else otherKind c

def string : Reader String := do
  let c ← peekChar
  if c = '\x22' then
    skip
    quoted true
  else otherKind c

def shape : Shape → Reader Json
  | .number => number
  | .text => return .text (← string)
  | .texts => do
    let c ← peekChar
    if c = '[' then return .array ((← array string).map .text) else otherKind c

def choiceName (names : List String) : Reader String := do
  let name ← string
  if name ∈ names then return name else throw .mismatch

def choice (names : List String) : Reader Json := do
  let c ← peekChar
  if c = '\x22' then return .text (← choiceName names)
  else if c = '\x7b' then
    skip
    let chosen ← choiceName names
    colon
    let c ← peekChar
    if c ≠ 'n' then otherKind c
    name c
    if (← peekChar) ≠ '\x7d' then throw .malformed
    skip
    return .text chosen
  else throw .malformed

-- The items of a record in an array.
def recordItems : List (String × Shape) → Bool → Reader (List (String × Json))
  | [], _ => return []
  | (key, s) :: fields, first => do
    if !(← hasItem first) then throw .mismatch
    let value ← shape s
    return (key, value) :: (← recordItems fields false)

-- The fields of a record in an object of fewer than `fuel` fields.
def recordFields (fields : List (String × Shape)) :
    Nat → Bool → List (String × Json) → Reader (List (String × Json))
  | 0, _, _ => throw .truncated
  | fuel + 1, first, found => do
    if !(← hasKey first) then return found
    skip
    let key ← quoted true
    match fields.lookup key with
    | some s =>
      if (found.lookup key).isSome then throw .mismatch
      colon
      recordFields fields fuel false (found ++ [(key, ← shape s)])
    | none =>
      colon
      ignored
      recordFields fields fuel false found

-- The fields that were found, in their order.
def ordered (fields : List (String × Shape)) (found : List (String × Json)) :
    Option (List (String × Json)) :=
  fields.mapM fun (key, _) => (found.lookup key).map (key, ·)

def record (fields : List (String × Shape)) : Reader Json := do
  let c ← peekChar
  if c = '[' then
    skip
    let items ← recordItems fields true
    endArray
    return .object items
  else if c = '\x7b' then
    skip
    let found ← recordFields fields ((← get).length + 1) true []
    match ordered fields found with
    | none => throw .mismatch
    | some fields =>
      skip
      return .object fields
  else otherKind c

def value : Schema → Reader Json
  | .single s => shape s
  | .choice names => choice names
  | .record fields => record fields

end Reader

-- The value that a whole text is. Nothing but blanks may follow it.
def Schema.read (s : Schema) (text : List Char) : Except Fault Json := do
  let (value, rest) ← Reader.value s text
  if (rest.dropWhile isBlank).isEmpty then return value else throw .malformed

end Lifecycle.Json
