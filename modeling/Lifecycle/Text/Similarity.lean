namespace Lifecycle.Text.Similarity

-- Takes the first free occurrence of `c` at a place from `low` on and below `high`; `place` is the
-- place of the first character given.
def take (c : Char) (low high : Nat) :
    Nat → List (Char × Bool) → Option (List (Char × Bool))
  | _, [] => none
  | place, (d, taken) :: rest =>
    if low ≤ place ∧ place < high ∧ c = d ∧ !taken then some ((d, true) :: rest)
    else (take c low high (place + 1) rest).map ((d, taken) :: ·)

-- The characters of one name that have a partner in the other no further away than `reach`, and
-- the other name with the partners marked.
def pair (reach : Nat) : Nat → List Char → List (Char × Bool) → List Char × List (Char × Bool)
  | _, [], b => ([], b)
  | place, c :: rest, b =>
    match take c (place - reach) (place + reach + 1) 0 b with
    | some b =>
      let (matched, b) := pair reach (place + 1) rest b
      (c :: matched, b)
    | none => pair reach (place + 1) rest b

-- The similarity of two names by their common characters.
def ofCommon (a b : List Char) : Rat :=
  if a.isEmpty ∧ b.isEmpty then 1
  else
    let reach := max a.length b.length / 2 - 1
    let (inA, marked) := pair reach 0 a (b.map (·, false))
    let inB := (marked.filter (·.2)).map (·.1)
    let matched := inA.length
    if matched = 0 then 0
    else
      let swapped := ((inA.zip inB).filter fun (c, d) => c ≠ d).length / 2
      ((matched : Rat) / a.length + (matched : Rat) / b.length +
        ((matched - swapped : Nat) : Rat) / matched) / 3

-- The number of characters, at most four, with which both names start.
def commonStart (a b : List Char) : Nat :=
  (((a.take 4).zip b).takeWhile fun (c, d) => c = d).length

-- The similarity of two names, from zero to one. From seven tenths on a common start adds to it, a
-- tenth of what is missing to one for each character.
def similarity (a b : List Char) : Rat :=
  let s := ofCommon a b
  if 7 / 10 ≤ s then s + commonStart a b / 10 * (1 - s) else s

-- The candidate that is most similar to a name, the first of several, if the similarity is above
-- eight tenths.
def closest? (name : String) (candidates : List String) : Option String :=
  (candidates.foldl (fun best c =>
    let s := similarity name.toList c.toList
    match best with
    | none => if 8 / 10 < s then some (s, c) else none
    | some (t, _) => if t < s then some (s, c) else best) none).map (·.2)

end Lifecycle.Text.Similarity
