import Lifecycle.Proofs.Token.Legible

namespace Lifecycle

open Text Lexer

namespace Lexer

-- The lexemes of a text that starts at a position.
inductive Lexes : Position → List Char → List Lexeme → Prop where
  | done {pos : Position} : Lexes pos [] []
  | item {pos : Position} {c : Char} {cs : List Char} {n : Nat} {ls rest : List Lexeme}
      (hitem : item? pos c cs = some (n, ls))
      (hrest : Lexes (pos.advance (c :: cs.take n)) (cs.drop n) rest) :
    Lexes pos (c :: cs) (ls ++ rest)

theorem Lexes.skip {pos : Position} {c : Char} {cs : List Char} {n : Nat} {ls : List Lexeme}
    (hitem : item? pos c cs = some (n, []))
    (h : Lexes (pos.advance (c :: cs.take n)) (cs.drop n) ls) : Lexes pos (c :: cs) ls :=
  .item hitem h

theorem Lexes.single {pos : Position} {c : Char} {cs : List Char} {n : Nat} {l : Lexeme}
    {ls : List Lexeme} (hitem : item? pos c cs = some (n, [l]))
    (h : Lexes (pos.advance (c :: cs.take n)) (cs.drop n) ls) : Lexes pos (c :: cs) (l :: ls) :=
  .item hitem h

theorem lexemesWithin_eq_some_iff {fuel : Nat} {pos : Position} {cs : List Char} {ls : List Lexeme}
    (hfuel : cs.length ≤ fuel) : lexemesWithin fuel pos cs = some ls ↔ Lexes pos cs ls := by
  induction fuel generalizing pos cs ls with
  | zero =>
    obtain rfl : cs = [] := by simpa using hfuel
    constructor
    · intro h
      obtain rfl : [] = ls := by simpa [lexemesWithin] using h
      exact .done
    · rintro ⟨⟩
      rfl
  | succ fuel ih =>
    cases cs with
    | nil =>
      constructor
      · intro h
        obtain rfl : [] = ls := by simpa [lexemesWithin] using h
        exact .done
      · rintro ⟨⟩
        rfl
    | cons c cs =>
      have hdrop : ∀ n, (cs.drop n).length ≤ fuel := fun n => by
        simp only [List.length_drop, List.length_cons] at hfuel ⊢
        omega
      simp only [lexemesWithin]
      constructor
      · intro h
        split at h
        · rename_i n first hitem
          obtain ⟨rest, hrest, rfl⟩ := Option.map_eq_some_iff.1 h
          exact .item hitem ((ih (hdrop n)).1 hrest)
        · cases h
      · rintro (⟨⟩ | ⟨hitem, hrest⟩)
        simp [hitem, (ih (hdrop _)).2 hrest]

-- The lexemes that trees are grouped from.
def flatten : List Tree → List Lexeme
  | [] => []
  | .group d body start stop :: rest =>
    .opening d start :: (flatten body ++ .closing d stop :: flatten rest)
  | t :: rest => .leaf t :: flatten rest

theorem group_flatten (trees : List Tree) (frames : List Frame) (done : List Tree)
    (ls : List Lexeme) :
    group frames done (flatten trees ++ ls) = group frames (trees.reverse ++ done) ls := by
  induction trees using flatten.induct generalizing frames done ls with
  | case1 => simp [flatten]
  | case2 d body start stop rest ihbody ihrest =>
    simp [flatten, group, ihbody, ihrest]
  | case3 t rest hleaf ih =>
    have hflat : flatten (t :: rest) = .leaf t :: flatten rest := by simp [flatten]
    rw [hflat]
    cases frames <;> simp [group, ih]

end Lexer

namespace Tree

-- The trees without their places.
def bare : List Tree → List Tree
  | [] => []
  | .ident name :: rest => .ident { text := name.text } :: bare rest
  | .punct c joint _ :: rest => .punct c joint {} :: bare rest
  | .lifetime name _ :: rest => .lifetime name {} :: bare rest
  | .literal text _ :: rest => .literal text {} :: bare rest
  | .group d body _ _ :: rest => .group d (bare body) {} {} :: bare rest

-- The trees that are read when these have been printed, without their places. A punctuation character
-- that was joined to something else than punctuation is no longer joined.
def retold : List Tree → List Tree
  | [] => []
  | .ident name :: rest => .ident { text := name.text } :: retold rest
  | .punct c joint _ :: rest =>
    .punct c (joint && (c == '\x27' || startsOperator (render rest))) {} :: retold rest
  | .lifetime name _ :: rest => .lifetime name {} :: retold rest
  | .literal text _ :: rest => .literal text {} :: retold rest
  | .group d body _ _ :: rest => .group d (retold body) {} {} :: retold rest

theorem render_cons (t : Tree) (rest : List Tree) :
    render (t :: rest) = chars t ++ if rest.isEmpty then [] else gap t ++ render rest := by
  cases rest with
  | nil => simp [render]
  | cons u rest => simp [render]

end Tree

theorem lexes_space {pos : Position} {cs : List Char} {ls : List Lexeme}
    (h : Lexes (pos.advance [' ']) cs ls) : Lexes pos (' ' :: cs) ls :=
  .skip (n := 0) rfl (by simpa using h)

-- No literal starts with an operator character other than an apostrophe.
theorem literalLength?_of_operator {c : Char} (hc : c ∈ operatorChars) (hquote : c ≠ '\x27')
    (cs : List Char) : Literal.length? (c :: cs) = none := by
  rw [Option.eq_none_iff_forall_ne_some]
  intro n hn
  obtain ⟨d, rest, hcs, hd⟩ := Literal.of_length? hn
    (P := fun c => c ∈ operatorChars → c = '\x27') (by decide) (by decide)
  obtain ⟨rfl, -⟩ := List.cons.inj hcs
  exact hquote (hd hc)

-- Whether what follows a slash makes it no comment.
def EndsSlash (cs : List Char) : Prop :=
  ∀ d ∈ cs.head?, d ≠ '/' ∧ d ≠ '*'

theorem startsOperator_of_mem {c : Char} {cs : List Char} (hc : c ∈ operatorChars)
    (hslash : c = '/' → EndsSlash cs) : startsOperator (c :: cs) = true := by
  unfold startsOperator
  split
  · rename_i heq
    obtain ⟨rfl, rfl⟩ := List.cons.inj heq
    exact absurd rfl (hslash rfl '/' rfl).1
  · rename_i heq
    obtain ⟨rfl, rfl⟩ := List.cons.inj heq
    exact absurd rfl (hslash rfl '*' rfl).2
  · rename_i heq
    obtain ⟨rfl, rfl⟩ := List.cons.inj heq
    simpa using hc
  · rename_i heq
    cases heq

theorem item?_slash {cs : List Char} (h : EndsSlash cs) (pos : Position) :
    item? pos '/' cs = (token? pos '/' cs).map fun (n, tree) => (n, [.leaf tree]) := by
  have hblank : blankLength ('/' :: cs) = none := by
    unfold blankLength
    split
    · rename_i heq
      obtain ⟨-, rfl⟩ := List.cons.inj heq
      exact absurd rfl (h '/' rfl).1
    · rename_i heq
      obtain ⟨-, rfl⟩ := List.cons.inj heq
      exact absurd rfl (h '*' rfl).2
    · rename_i heq
      obtain ⟨rfl, -⟩ := List.cons.inj heq
      rfl
    · rfl
  have hdoc : doc? ('/' :: cs) = none := by
    unfold doc?
    split
    · rename_i heq
      obtain ⟨-, rfl⟩ := List.cons.inj heq
      exact absurd rfl (h '/' rfl).1
    · rename_i heq
      obtain ⟨-, rfl⟩ := List.cons.inj heq
      exact absurd rfl (h '*' rfl).2
    · rfl
  simp [item?, hblank, hdoc, errorMark, List.isPrefixOf, Delimiter.ofOpening?, Delimiter.ofClosing?]

-- An operator character that starts no comment is read alone.
theorem item?_punct {c : Char} {cs : List Char} (hc : c ∈ operatorChars) (hquote : c ≠ '\x27')
    (hslash : c = '/' → EndsSlash cs) (pos : Position) :
    item? pos c cs = some (0, [.leaf (.punct c (startsOperator cs) pos)]) := by
  have hitem : item? pos c cs = (token? pos c cs).map fun (n, tree) => (n, [.leaf tree]) := by
    by_cases h : c = '/'
    · subst c
      exact item?_slash (hslash rfl) pos
    · have hchars : ∀ c ∈ operatorChars, isBlank c = false ∧ Delimiter.ofOpening? c = none ∧
          Delimiter.ofClosing? c = none := by decide
      obtain ⟨hblank, hopening, hclosing⟩ := hchars c hc
      exact item?_eq_token? h hblank hopening hclosing pos cs
  simp [hitem, token?, literalLength?_of_operator hc hquote, hquote, startsOperator_of_mem hc hslash]

theorem startsOperator_of_stops {tail : List Char} (h : Stops tail) :
    startsOperator tail = false := by
  cases tail with
  | nil => rfl
  | cons c tail =>
    obtain rfl | rfl | rfl | rfl := h c rfl <;> simp [startsOperator, operatorChars]

theorem startsOperator_cons (c : Char) (cs : List Char) :
    startsOperator (c :: cs) =
      (operatorChars.contains c && !(c == '/' && cs.head?.any fun d => d == '/' || d == '*')) := by
  by_cases hc : c = '/'
  · subst c
    unfold startsOperator
    split
    · rename_i heq
      simp [(List.cons.inj heq).2]
    · rename_i heq
      simp [(List.cons.inj heq).2]
    · rename_i hline hblock heq
      obtain ⟨rfl, rfl⟩ := List.cons.inj heq
      cases cs with
      | nil => rfl
      | cons d cs =>
        have hne : d ≠ '/' ∧ d ≠ '*' := 
          ⟨fun h => hline _ rfl (by rw [h]), fun h => hblock _ rfl (by rw [h])⟩
        simp [hne.1, hne.2]
    · rename_i heq
      cases heq
  · rw [startsOperator]
    · simp [hc]
    · exact fun _ h => absurd h hc
    · exact fun _ h => absurd h hc

-- The end of a token is no operator, and makes no comment of a slash.
theorem startsOperator_append {tail : List Char} (h : Stops tail) (cs : List Char) :
    startsOperator (cs ++ tail) = startsOperator cs := by
  have hhead : (tail.head?.any fun d => d == '/' || d == '*') = false := by
    have hnone := h.head (P := fun d => (d == '/' || d == '*') = false) (by decide) (by decide)
      (by decide) (by decide)
    cases tail with
    | nil => rfl
    | cons d tail => exact hnone d rfl
  match cs with
  | [] => exact startsOperator_of_stops h
  | [c] =>
    rw [List.singleton_append, startsOperator_cons, startsOperator_cons, hhead]
    simp
  | c :: d :: cs =>
    rw [List.cons_append, startsOperator_cons, startsOperator_cons]
    simp

theorem readsAs_punct {c : Char} (hc : c ∈ operatorChars) (hquote : c ≠ '\x27') :
    ReadsAs [c] fun pos => .punct c false pos := by
  intro tail pos htail
  have hslash : EndsSlash tail := htail.head (by decide) (by decide) (by decide) (by decide)
  refine ⟨c, [], rfl, ?_⟩
  simp [item?_punct hc hquote (fun _ => hslash), startsOperator_of_stops htail]

theorem item?_closing (d : Delimiter) (pos : Position) (cs : List Char) :
    item? pos d.closing cs = some (0, [.closing d pos]) := by
  cases d <;> rfl

theorem item?_opening {d : Delimiter} {cs : List Char} (h : ∀ more, cs ≠ '/' :: '*' :: more)
    (pos : Position) : item? pos d.opening cs = some (0, [.opening d pos]) := by
  cases d with
  | paren =>
    have hmark : errorMark.isPrefixOf ('(' :: cs) = false := by
      by_contra hprefix
      obtain ⟨more, hmore⟩ := List.isPrefixOf_iff_prefix.1 (Bool.not_eq_false _ ▸ hprefix)
      exact h _ (List.cons.inj hmore).2.symm
    have hblank : blankLength ('(' :: cs) = none := rfl
    have hdoc : doc? ('(' :: cs) = none := rfl
    simp [item?, Delimiter.opening, hblank, hdoc, hmark, Delimiter.ofOpening?]
  | bracket => rfl
  | brace => rfl

namespace Tree

-- What stands between a tree and the end of the last one after it.
def following (rest : List Tree) (tail : List Char) : List Char :=
  if rest.isEmpty then tail else ' ' :: (render rest ++ tail)

theorem stops_following (rest : List Tree) {tail : List Char} (h : Stops tail) :
    Stops (following rest tail) := by
  unfold following
  split
  · exact h
  · exact stops_cons _ (.inl rfl)

theorem render_cons_append {t : Tree} (hjoint : t.isJoint = false) (rest : List Tree)
    (tail : List Char) : render (t :: rest) ++ tail = chars t ++ following rest tail := by
  cases rest with
  | nil => simp [render, following]
  | cons u rest => simp [render, following, gap, hjoint]

-- Whether a text is the one of some trees wherever a token can end after it, whatever is read there.
def ReadsBack (trees : List Tree) (cs : List Char) : Prop :=
  ∀ tail pos, Stops tail → ∃ found pos', bare found = retold trees ∧
    ∀ ls, Lexes pos' tail ls → Lexes pos (cs ++ tail) (flatten found ++ ls)

theorem ReadsBack.following {rest : List Tree} (h : ReadsBack rest (render rest))
    {tail : List Char} (htail : Stops tail) (pos : Position) :
    ∃ found pos', bare found = retold rest ∧
      ∀ ls, Lexes pos' tail ls → Lexes pos (following rest tail) (flatten found ++ ls) := by
  cases rest with
  | nil => simpa [Tree.following, render] using h tail pos htail
  | cons u rest =>
    obtain ⟨found, pos', hfound, hlexes⟩ := h tail (pos.advance [' ']) htail
    exact ⟨found, pos', hfound, fun ls hls => lexes_space (hlexes ls hls)⟩

-- A token that a space follows, and the trees after it.
theorem ReadsBack.cons {t : Tree} {rest : List Tree} {leaf : Position → Tree}
    (ht : ReadsAs t.chars leaf) (hjoint : t.isJoint = false)
    (hretold : ∀ pos found, bare found = retold rest →
      bare (leaf pos :: found) = retold (t :: rest))
    (hleaf : ∀ pos found, flatten (leaf pos :: found) = .leaf (leaf pos) :: flatten found)
    (h : ReadsBack rest (render rest)) : ReadsBack (t :: rest) (render (t :: rest)) := by
  intro tail pos htail
  obtain ⟨c, more, hchars, hitem⟩ := ht (Tree.following rest tail) pos (stops_following rest htail)
  obtain ⟨found, pos', hfound, hlexes⟩ := h.following htail (pos.advance t.chars)
  refine ⟨leaf pos :: found, pos', hretold pos found hfound, fun ls hls => ?_⟩
  rw [render_cons_append hjoint, hchars, List.cons_append, hleaf]
  refine .single hitem ?_
  rw [List.take_left, List.drop_left, ← hchars]
  exact hlexes ls hls

theorem render_joint_append (c : Char) (pos : Position) (rest : List Tree) (tail : List Char) :
    render (.punct c true pos :: rest) ++ tail = c :: (render rest ++ tail) := by
  cases rest <;> simp [render, chars, gap, isJoint]

theorem TakesSlash.ends {trees : List Tree} (h : TakesSlash trees) (tail : List Char) :
    EndsSlash (render trees ++ tail) := by
  obtain ⟨c, hc, hne⟩ := h
  cases trees with
  | nil => cases hc
  | cons t rest =>
    obtain ⟨more, hchars⟩ : ∃ more, chars t = c :: more := by
      cases hchars : chars t with
      | nil => simp [lead?, hchars] at hc
      | cons d more =>
        obtain rfl : d = c := by simpa [lead?, hchars] using hc
        exact ⟨more, rfl⟩
    intro d hd
    obtain rfl : c = d := by simpa [render_cons, hchars] using hd
    exact hne

-- An operator character and the trees after it.
theorem ReadsBack.punct {c : Char} {joint : Bool} {place : Position} {rest : List Tree}
    (hc : c ∈ operatorChars) (hquote : c ≠ '\x27')
    (hslash : c = '/' → joint = true → TakesSlash rest) (h : ReadsBack rest (render rest)) :
    ReadsBack (.punct c joint place :: rest) (render (.punct c joint place :: rest)) := by
  cases joint with
  | false =>
    refine .cons (readsAs_punct hc hquote) rfl ?_ ?_ h
    · intro pos found hfound
      simp [bare, retold, hfound]
    · intro pos found
      simp [flatten]
  | true =>
    intro tail pos htail
    obtain ⟨found, pos', hfound, hlexes⟩ := h tail (pos.advance [c]) htail
    refine ⟨.punct c (startsOperator (render rest ++ tail)) pos :: found, pos', ?_, fun ls hls => ?_⟩
    · simp [bare, retold, hfound, hquote, startsOperator_append htail]
    · have hitem := item?_punct hc hquote (fun h => (hslash h rfl).ends tail) pos
      rw [render_joint_append]
      simp only [flatten, List.cons_append]
      exact .single hitem (hlexes ls hls)

-- An apostrophe, the literal it stands before, and the trees after that.
theorem ReadsBack.quote {text : String} {place place' : Position} {rest : List Tree}
    (htext : TakesQuote text.toList)
    (h : ReadsBack (.literal text place' :: rest) (render (.literal text place' :: rest))) :
    ReadsBack (.punct '\x27' true place :: .literal text place' :: rest)
      (render (.punct '\x27' true place :: .literal text place' :: rest)) := by
  intro tail pos htail
  have hitem := htext (Tree.following rest tail) pos (stops_following rest htail)
  obtain ⟨found, pos', hfound, hlexes⟩ := h tail (pos.advance ['\x27']) htail
  refine ⟨.punct '\x27' true pos :: found, pos', by simp [bare, retold, hfound], fun ls hls => ?_⟩
  have hliteral := hlexes ls hls
  rw [render_cons_append rfl, chars] at hliteral
  rw [render_joint_append, render_cons_append rfl, chars]
  simp only [flatten, List.cons_append]
  exact .single hitem hliteral

-- What stands between the brackets of a group.
def inside : Delimiter → List Tree → List Char
  | .brace, [] => [' ']
  | .brace, t :: rest => ' ' :: render (t :: rest) ++ [' ']
  | _, body => render body

theorem chars_group (d : Delimiter) (body : List Tree) (start stop : Position) :
    chars (.group d body start stop) = d.opening :: inside d body ++ [d.closing] := by
  cases d with
  | paren => simp [chars, inside, Delimiter.opening, Delimiter.closing]
  | bracket => simp [chars, inside, Delimiter.opening, Delimiter.closing]
  | brace => cases body <;> simp [chars, inside, Delimiter.opening, Delimiter.closing]

theorem inside_brace (body : List Tree) :
    inside .brace body = if body.isEmpty then [' '] else ' ' :: render body ++ [' '] := by
  cases body <;> simp [inside]

theorem isEmpty_bare (trees : List Tree) : (bare trees).isEmpty = trees.isEmpty := by
  cases trees with
  | nil => simp [bare]
  | cons t rest => cases t <;> simp [bare]

-- Places do not show in a text.
theorem render_bare (trees : List Tree) : render (bare trees) = render trees := by
  induction trees using bare.induct with
  | case1 => simp [bare]
  | case2 name rest ih | case4 name pos rest ih | case5 text pos rest ih =>
    simp [bare, render_cons, chars, gap, isJoint, isEmpty_bare, ih]
  | case3 c joint pos rest ih =>
    rw [bare, render_cons, render_cons, isEmpty_bare, ih]
    simp only [chars, gap, isJoint]
    rfl
  | case6 d body start stop rest ihbody ihrest =>
    have hinside : inside d (bare body) = inside d body := by
      cases d with
      | paren => exact ihbody
      | bracket => exact ihbody
      | brace => simp only [inside_brace, isEmpty_bare, ihbody]
    simp [bare, render_cons, chars_group, hinside, gap, isJoint, isEmpty_bare, ihrest]

theorem ReadsBack.inside {body : List Tree} (h : ReadsBack body (render body)) (d : Delimiter)
    (more : List Char) (pos : Position) :
    ∃ found pos', bare found = retold body ∧
      ∀ ls, Lexes pos' (d.closing :: more) ls →
        Lexes pos (inside d body ++ d.closing :: more) (flatten found ++ ls) := by
  cases d with
  | paren => exact h _ pos (stops_cons more (.inr (.inl rfl)))
  | bracket => exact h _ pos (stops_cons more (.inr (.inr (.inl rfl))))
  | brace =>
    cases body with
    | nil => exact ⟨[], pos.advance [' '], by simp [bare, retold], fun ls hls => by
        simpa [Tree.inside, flatten] using lexes_space hls⟩
    | cons t rest =>
      obtain ⟨found, pos', hfound, hlexes⟩ :=
        h (' ' :: '\x7d' :: more) (pos.advance [' ']) (stops_cons _ (.inl rfl))
      refine ⟨found, pos'.advance [' '], hfound, fun ls hls => ?_⟩
      simpa [Tree.inside, Delimiter.closing] using
        lexes_space (hlexes ls (lexes_space (by simpa [Delimiter.closing] using hls)))

-- No text of trees starts with a comment.
theorem Legible.endsSlash {trees : List Tree} (h : Legible trees) {tail more : List Char}
    (htail : Stops tail) (heq : render trees ++ tail = '/' :: more) : EndsSlash more := by
  have hstops : ∀ {tail : List Char}, Stops tail → EndsSlash tail := fun h =>
    h.head (by decide) (by decide) (by decide) (by decide)
  cases h with
  | nil => exact absurd (htail '/' (by simpa [render] using congrArg List.head? heq)) (by decide)
  | ident hname _ =>
    obtain ⟨c, cs, hcs, hstart⟩ := hname.exists_start
    rw [render_cons_append rfl, chars, hcs] at heq
    exact absurd (List.cons.inj heq).1 (identifierStart_ne hstart (by decide))
  | lifetime _ _ =>
    rw [render_cons_append rfl, chars] at heq
    exact absurd (List.cons.inj heq).1 (by decide)
  | literal htext _ =>
    obtain ⟨c, cs, hcs, hc⟩ := htext.exists_head
    rw [render_cons_append rfl, chars, hcs] at heq
    exact absurd (List.cons.inj heq).1 hc
  | @punct c joint _ rest _ _ hslash _ =>
    cases joint with
    | false =>
      rw [render_cons_append rfl, chars] at heq
      exact (List.cons.inj heq).2 ▸ hstops (stops_following rest htail)
    | true =>
      rw [render_joint_append] at heq
      obtain ⟨rfl, rfl⟩ := List.cons.inj heq
      exact (hslash rfl rfl).ends tail
  | quote _ _ =>
    rw [render_joint_append] at heq
    exact absurd (List.cons.inj heq).1 (by decide)
  | @group d _ _ _ _ _ _ =>
    rw [render_cons_append rfl, chars_group] at heq
    exact absurd (List.cons.inj heq).1 (by cases d <;> decide)

theorem Legible.inside_ne {body : List Tree} (h : Legible body) (d : Delimiter)
    (cs more : List Char) : inside d body ++ d.closing :: cs ≠ '/' :: '*' :: more := by
  have hrender : ∀ {c : Char}, (c = ' ' ∨ c = ')' ∨ c = ']' ∨ c = '\n') →
      render body ++ c :: cs ≠ '/' :: '*' :: more := fun hc heq =>
    (h.endsSlash (stops_cons cs hc) heq '*' rfl).2 rfl
  cases d with
  | paren => exact hrender (.inr (.inl rfl))
  | bracket => exact hrender (.inr (.inr (.inl rfl)))
  | brace => cases body <;> simp [inside]

-- A group and the trees after it.
theorem ReadsBack.group {d : Delimiter} {body : List Tree} {start stop : Position}
    {rest : List Tree} (hlegible : Legible body) (hbody : ReadsBack body (render body))
    (h : ReadsBack rest (render rest)) :
    ReadsBack (.group d body start stop :: rest) (render (.group d body start stop :: rest)) := by
  intro tail pos htail
  obtain ⟨inner, stop', hinner, hinside⟩ :=
    hbody.inside d (Tree.following rest tail) (pos.advance [d.opening])
  obtain ⟨found, pos', hfound, hlexes⟩ := h.following htail (stop'.advance [d.closing])
  refine ⟨.group d inner pos stop' :: found, pos', by simp [bare, retold, hinner, hfound],
    fun ls hls => ?_⟩
  have hclosing := Lexes.item (item?_closing d stop' _) (hlexes ls hls)
  have hopening := item?_opening (d := d) (hlegible.inside_ne d (Tree.following rest tail)) pos
  rw [render_cons_append rfl, chars_group]
  simp only [List.cons_append, List.append_assoc, List.nil_append, flatten]
  exact .single hopening (hinside _ hclosing)

theorem Legible.readsBack {trees : List Tree} (h : Legible trees) :
    ReadsBack trees (render trees) := by
  induction h with
  | nil =>
    intro tail pos htail
    exact ⟨[], pos, by simp [bare, retold], fun ls hls => by simpa [render, flatten] using hls⟩
  | @ident name rest hname _ ih =>
    have hread : ReadsAs (chars (.ident name)) fun pos => .ident { text := name.text, pos } := by
      simpa [chars] using readsAs_name hname
    refine .cons hread rfl ?_ ?_ ih
    · intro pos found hfound
      simp [bare, retold, hfound]
    · intro pos found
      simp [flatten]
  | @lifetime name place rest hname _ ih =>
    have hread : ReadsAs (chars (.lifetime name place)) fun pos => .lifetime name pos := by
      simpa [chars] using readsAs_lifetime hname
    refine .cons hread rfl ?_ ?_ ih
    · intro pos found hfound
      simp [bare, retold, hfound]
    · intro pos found
      simp [flatten]
  | @literal text place rest htext _ ih =>
    have hread : ReadsAs (chars (.literal text place)) fun pos => .literal text pos := by
      simpa [chars] using readsAs_of_isLiteral htext
    refine .cons hread rfl ?_ ?_ ih
    · intro pos found hfound
      simp [bare, retold, hfound]
    · intro pos found
      simp [flatten]
  | punct hc hquote hslash _ ih => exact .punct hc hquote hslash ih
  | quote htext _ ih => exact .quote htext ih
  | group hbody _ ihbody ih => exact .group hbody ihbody ih

end Tree

-- A line that is an ordinary comment, and its end.
theorem lexes_comment {line : List Char} (hline : '\n' ∉ line)
    (hdoc : ∀ more, isDocLine (line ++ more) = false) (pos : Position) (cs : List Char) :
    ∃ pos', ∀ ls, Lexes pos' cs ls → Lexes pos ('/' :: '/' :: (line ++ '\n' :: cs)) ls := by
  have hlength : lineLength (line ++ '\n' :: cs) = line.length := by
    have hall : ∀ c ∈ line, decide (c ≠ '\n') = true :=
      fun c hc => decide_eq_true fun (h : c = '\n') => hline (h ▸ hc)
    rw [lineLength, takeWhile_append_of_all hall (by simp)]
  have hblank : blankLength ('/' :: '/' :: (line ++ '\n' :: cs)) = some (line.length + 2) := by
    unfold blankLength
    simp only [hdoc, hlength]
    rfl
  have hitem : item? pos '/' ('/' :: (line ++ '\n' :: cs)) = some (line.length + 1, []) := by
    unfold item?
    simp only [hblank]
    rfl
  refine ⟨(pos.advance ('/' :: '/' :: line)).advance ['\n'], fun ls hls => ?_⟩
  have hend : Lexes (pos.advance ('/' :: '/' :: line)) ('\n' :: cs) ls :=
    .skip (n := 0) rfl (by simpa using hls)
  exact .skip hitem (by simpa using hend)

namespace Tree

theorem read?_of_lexes {trees : List Tree} {c : Char} {cs : List Char} (hc : c ≠ '\ufeff')
    (h : Lexes {} (c :: cs) (flatten trees)) : Tree.read? (c :: cs) = some trees := by
  have hlexemes : lexemes (c :: cs) = some (flatten trees) := by
    unfold lexemes
    split
    · rename_i heq
      exact absurd (List.cons.inj heq).1 hc
    · exact (lexemesWithin_eq_some_iff le_rfl).2 h
  have hgroup := group_flatten trees [] [] []
  simp only [List.append_nil] at hgroup
  simp [Tree.read?, hlexemes, hgroup, Lexer.group]

-- Legible trees are read from their text, and from a text that goes on with nothing but blanks.
theorem Legible.exists_read?_render {trees : List Tree} (h : Legible trees) {tail : List Char}
    (htail : Stops tail) (hend : ∀ pos, Lexes pos tail []) {c : Char} {cs : List Char}
    (hc : c ≠ '\ufeff') (hchars : render trees ++ tail = c :: cs) :
    ∃ found, Tree.read? (render trees ++ tail) = some found ∧ bare found = retold trees := by
  obtain ⟨found, pos, hfound, hlexes⟩ := h.readsBack tail {} htail
  have hall := hlexes [] (hend pos)
  rw [List.append_nil, hchars] at hall
  exact ⟨found, hchars ▸ read?_of_lexes hc hall, hfound⟩

-- A line of comment and legible trees below it are read as these trees.
theorem Legible.exists_read? {trees : List Tree} (h : Legible trees) {line : List Char}
    (hline : '\n' ∉ line) (hdoc : ∀ more, isDocLine (line ++ more) = false) :
    ∃ found, Tree.read? ('/' :: '/' :: line ++ '\n' :: (render trees ++ ['\n'])) = some found ∧
      bare found = retold trees := by
  obtain ⟨pos, hcomment⟩ := lexes_comment hline hdoc {} (render trees ++ ['\n'])
  obtain ⟨found, pos', hfound, hlexes⟩ :=
    h.readsBack ['\n'] pos (stops_cons [] (.inr (.inr (.inr rfl))))
  have hend : Lexes pos' ['\n'] [] := .skip (n := 0) rfl .done
  refine ⟨found, ?_, hfound⟩
  have hall := hcomment _ (hlexes [] hend)
  rw [List.append_nil] at hall
  exact read?_of_lexes (by decide) hall

-- Trees in which only operators of more than one character are joined, and none of them has a slash.
inductive Neat : List Tree → Prop where
  | nil : Neat []
  | ident {name : Ident} {rest : List Tree} (hname : IsName name.text.toList) (hrest : Neat rest) :
    Neat (.ident name :: rest)
  | lifetime {name : String} {pos : Position} {rest : List Tree} (hname : IsName name.toList)
      (hrest : Neat rest) :
    Neat (.lifetime name pos :: rest)
  | literal {text : String} {pos : Position} {rest : List Tree} (htext : IsLiteral text.toList)
      (hrest : Neat rest) :
    Neat (.literal text pos :: rest)
  | alone {c : Char} {pos : Position} {rest : List Tree} (hc : c ∈ operatorChars)
      (hquote : c ≠ '\x27') (hrest : Neat rest) :
    Neat (.punct c false pos :: rest)
  | joint {c d : Char} {joint : Bool} {pos pos' : Position} {rest : List Tree}
      (hc : c ∈ operatorChars) (hquote : c ≠ '\x27') (hslash : c ≠ '/' ∧ d ≠ '/')
      (hrest : Neat (.punct d joint pos' :: rest)) :
    Neat (.punct c true pos :: .punct d joint pos' :: rest)
  | group {d : Delimiter} {body : List Tree} {start stop : Position} {rest : List Tree}
      (hbody : Neat body) (hrest : Neat rest) :
    Neat (.group d body start stop :: rest)

namespace Neat

theorem append {trees more : List Tree} (h : Neat trees) (hmore : Neat more) :
    Neat (trees ++ more) := by
  induction h with
  | nil => exact hmore
  | ident hname _ ih => exact .ident hname ih
  | lifetime hname _ ih => exact .lifetime hname ih
  | literal htext _ ih => exact .literal htext ih
  | alone hc hquote _ ih => exact .alone hc hquote ih
  | joint hc hquote hslash _ ih => exact .joint hc hquote hslash ih
  | group hbody _ _ ih => exact .group hbody ih

theorem legible {trees : List Tree} (h : Neat trees) : Legible trees := by
  induction h with
  | nil => exact .nil
  | ident hname _ ih => exact .ident hname ih
  | lifetime hname _ ih => exact .lifetime hname ih
  | literal htext _ ih => exact .literal htext ih
  | alone hc hquote _ ih => exact .punct hc hquote (fun _ h => nomatch h) ih
  | joint hc hquote hslash _ ih => exact .punct hc hquote (fun h => absurd h hslash.1) ih
  | group _ _ ihbody ih => exact .group ihbody ih

theorem operator {d : Char} {joint : Bool} {pos : Position} {rest : List Tree}
    (h : Neat (.punct d joint pos :: rest)) : d ∈ operatorChars := by
  cases h with
  | alone hc _ _ => exact hc
  | joint hc _ _ _ => exact hc

-- Nothing about these trees changes when their text is read, but their places.
theorem retold_eq_bare {trees : List Tree} (h : Neat trees) : retold trees = bare trees := by
  induction h with
  | nil => simp [retold, bare]
  | ident _ _ ih => simp [retold, bare, ih]
  | lifetime _ _ ih => simp [retold, bare, ih]
  | literal _ _ ih => simp [retold, bare, ih]
  | alone _ _ _ ih => simp [retold, bare, ih]
  | @joint c d joint pos pos' rest _ _ hslash hrest ih =>
    have hstarts : startsOperator (render (.punct d joint pos' :: rest)) = true := by
      rw [render_cons, chars, List.singleton_append]
      exact startsOperator_of_mem hrest.operator fun h => absurd h hslash.2
    rw [retold, ih]
    simp [bare, hstarts]
  | group _ _ ihbody ih => simp [retold, bare, ihbody, ih]

end Neat

end Tree

end Lifecycle
