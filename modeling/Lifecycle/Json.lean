namespace Lifecycle

-- A JSON value. Numbers are the whole ones from zero on.
inductive Json where
  | null
  | number (value : Nat)
  | text (value : String)
  | array (items : List Json)
  | object (fields : List (String × Json))

namespace Json

-- A digit in base sixteen.
def hexDigit (n : Nat) : Char :=
  if n < 10 then Char.ofNat (48 + n) else Char.ofNat (87 + n)

-- One character inside quotes. Characters below U+0020 are escaped, the others but the quote and
-- the backslash stand for themselves.
def escapeChar (c : Char) : List Char :=
  if c = '\x22' then ['\\', '\x22']
  else if c = '\\' then ['\\', '\\']
  else if c = '\x08' then ['\\', 'b']
  else if c = '\x0c' then ['\\', 'f']
  else if c = '\n' then ['\\', 'n']
  else if c = '\r' then ['\\', 'r']
  else if c = '\t' then ['\\', 't']
  else if c.toNat < 0x20 then
    ['\\', 'u', '0', '0', hexDigit (c.toNat / 16), hexDigit (c.toNat % 16)]
  else [c]

def quote (text : List Char) : List Char :=
  '\x22' :: text.flatMap escapeChar ++ ['\x22']

def digits (n : Nat) : List Char :=
  Nat.toDigits 10 n

mutual

-- The compact text of a value.
def compact : Json → List Char
  | .null => ['n', 'u', 'l', 'l']
  | .number n => digits n
  | .text s => quote s.toList
  | .array items => '[' :: compactItems items ++ [']']
  | .object fields => '\x7b' :: compactFields fields ++ ['\x7d']

-- The compact text of the items of an array.
def compactItems : List Json → List Char
  | [] => []
  | [j] => compact j
  | j :: k :: rest => compact j ++ ',' :: compactItems (k :: rest)

-- The compact text of the fields of an object.
def compactFields : List (String × Json) → List Char
  | [] => []
  | [(key, j)] => quote key.toList ++ ':' :: compact j
  | (key, j) :: f :: rest =>
    quote key.toList ++ ':' :: (compact j ++ ',' :: compactFields (f :: rest))

end

-- The compact text of a value as a string.
def compactText (j : Json) : String :=
  String.ofList (compact j)

-- The start of a line at some depth.
def newline (depth : Nat) : List Char :=
  '\n' :: List.replicate (2 * depth) ' '

mutual

-- The text of a value at some depth, with a line for every item of a list that is not empty.
def lines (depth : Nat) : Json → List Char
  | .null => ['n', 'u', 'l', 'l']
  | .number n => digits n
  | .text s => quote s.toList
  | .array [] => ['[', ']']
  | .array (j :: items) =>
    '[' :: newline (depth + 1) ++ lines (depth + 1) j ++ linesItems (depth + 1) items ++
      newline depth ++ [']']
  | .object [] => ['\x7b', '\x7d']
  | .object ((key, j) :: fields) =>
    '\x7b' :: newline (depth + 1) ++ quote key.toList ++ ':' :: ' ' :: lines (depth + 1) j ++
      linesFields (depth + 1) fields ++ newline depth ++ ['\x7d']

-- The items of an array after the first.
def linesItems (depth : Nat) : List Json → List Char
  | [] => []
  | j :: items => ',' :: newline depth ++ lines depth j ++ linesItems depth items

-- The fields of an object after the first.
def linesFields (depth : Nat) : List (String × Json) → List Char
  | [] => []
  | (key, j) :: fields =>
    ',' :: newline depth ++ quote key.toList ++ ':' :: ' ' :: lines depth j ++
      linesFields depth fields

end

-- The text of a value in lines as a string.
def linesText (j : Json) : String :=
  String.ofList (lines 0 j)

end Json

end Lifecycle
