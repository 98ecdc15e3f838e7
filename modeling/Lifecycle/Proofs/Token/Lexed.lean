import Lifecycle.Proofs.Token.Reading
import Lifecycle.Proofs.Token.Written

namespace Lifecycle

open Text Lexer

namespace Lexer

-- Lexemes that stand where they can be read.
inductive Linked : List Lexeme → Prop where
  | nil : Linked []
  | ident {name : Ident} {rest : List Lexeme} (hname : IsName name.text.toList)
      (hrest : Linked rest) :
    Linked (.leaf (.ident name) :: rest)
  | lifetime {name : String} {pos : Position} {rest : List Lexeme} (hname : IsName name.toList)
      (hrest : Linked rest) :
    Linked (.leaf (.lifetime name pos) :: rest)
  | literal {text : String} {pos : Position} {rest : List Lexeme} (htext : IsLiteral text.toList)
      (hrest : Linked rest) :
    Linked (.leaf (.literal text pos) :: rest)
  | punct {c : Char} {joint : Bool} {pos : Position} {rest : List Lexeme} (hc : c ∈ operatorChars)
      (hquote : c ≠ '\x27')
      (hslash : c = '/' → joint = true → ∃ t more, rest = .leaf t :: more ∧ Tree.TakesSlash [t])
      (hrest : Linked rest) :
    Linked (.leaf (.punct c joint pos) :: rest)
  | quote {text : String} {pos pos' : Position} {rest : List Lexeme} (htext : TakesQuote text.toList)
      (hrest : Linked (.leaf (.literal text pos') :: rest)) :
    Linked (.leaf (.punct '\x27' true pos) :: .leaf (.literal text pos') :: rest)
  | group {d : Delimiter} {body : List Tree} {start stop : Position} {rest : List Lexeme}
      (hbody : Tree.Legible body) (hrest : Linked rest) :
    Linked (.leaf (.group d body start stop) :: rest)
  | opening {d : Delimiter} {pos : Position} {rest : List Lexeme} (hrest : Linked rest) :
    Linked (.opening d pos :: rest)
  | closing {d : Delimiter} {pos : Position} {rest : List Lexeme} (hrest : Linked rest) :
    Linked (.closing d pos :: rest)

-- The text of a literal that is read.
theorem isLiteral_take {cs : List Char} {n : Nat} (h : Literal.length? cs = some n) :
    IsLiteral (cs.take n) := by
  have hlen : (cs.take n).length = n := List.length_take_of_le (Literal.length?_bounds h).2
  exact .inl ⟨cs.drop n, by rw [List.take_append_drop, hlen, h]⟩

theorem nameLength?_of_identLength? {cs : List Char} {n : Nat} (h : identLength? cs = some n) :
    nameLength? cs = some n := by
  unfold identLength? at h
  split at h
  · cases h
  · exact h

-- The letters of the quoted literals that start like a name.
def letters : List (List Char) := [['r'], ['b'], ['b', 'r'], ['c'], ['c', 'r']]

theorem takesQuote_of_letters {mark more rest : List Char} (hmark : mark ∈ letters)
    (h : Literal.length? (mark ++ '\x22' :: more ++ rest) = some (mark ++ '\x22' :: more).length) :
    TakesQuote (mark ++ '\x22' :: more) := by
  intro tail pos htail
  have hliteral := Literal.length?_append h htail
  have hstarts : startsLifetime (mark ++ '\x22' :: (more ++ tail)) = true := by
    simp only [letters, List.mem_cons, List.not_mem_nil, or_false] at hmark
    obtain rfl | rfl | rfl | rfl | rfl := hmark <;> rfl
  have hnone : Literal.length? ('\x27' :: (mark ++ '\x22' :: (more ++ tail))) = none := by
    simp only [letters, List.mem_cons, List.not_mem_nil, or_false] at hmark
    obtain rfl | rfl | rfl | rfl | rfl := hmark <;> rfl
  rw [item?_eq_token? (by decide) (by decide) (by decide) (by decide), token?]
  simp only [List.append_assoc, List.cons_append] at hliteral ⊢
  simp [hnone, lifetime?, hstarts, hliteral]

-- What starts like a lifetime and is quoted has letters in front of the quote.
theorem exists_letters_quote {cs : List Char} {n : Nat} (hstarts : startsLifetime cs = true)
    (h : Literal.quotedLength cs = some n) :
    ∃ mark ∈ letters, mark ++ ['\x22'] <+: cs ∧ mark.length + 1 ≤ n := by
  have htwo := Literal.two_le_quotedLength h
  unfold Literal.quotedLength at h
  split at h
  case h_1 | h_5 | h_8 => cases hstarts
  case h_9 => cases h
  case h_2 =>
    obtain ⟨j, hj, -⟩ := Option.map_eq_some_iff.1 h
    obtain ⟨r, rfl | rfl | rfl⟩ := rawLength_start hj
    · exact ⟨['r'], by decide, ⟨r, rfl⟩, htwo⟩
    · cases hstarts
    · cases hstarts
  case h_3 cs => exact ⟨['b'], by decide, ⟨cs, rfl⟩, htwo⟩
  case h_6 cs => exact ⟨['c'], by decide, ⟨cs, rfl⟩, htwo⟩
  case h_4 =>
    obtain ⟨j, hj, rfl⟩ := Option.map_eq_some_iff.1 h
    have hpos := Literal.rawLength_pos hj
    obtain ⟨r, rfl | rfl | rfl⟩ := rawLength_start hj
    · exact ⟨['b', 'r'], by decide, ⟨r, rfl⟩, by simp only [List.length_cons, List.length_nil]; omega⟩
    · cases hstarts
    · cases hstarts
  case h_7 =>
    obtain ⟨j, hj, rfl⟩ := Option.map_eq_some_iff.1 h
    have hpos := Literal.rawLength_pos hj
    obtain ⟨r, rfl | rfl | rfl⟩ := rawLength_start hj
    · exact ⟨['c', 'r'], by decide, ⟨r, rfl⟩, by simp only [List.length_cons, List.length_nil]; omega⟩
    · cases hstarts
    · cases hstarts

theorem exists_identifierStart {cs : List Char} {n : Nat} (h : nameLength? cs = some n) :
    ∃ c rest, cs = c :: rest ∧ isIdentifierStart c = true := by
  obtain ⟨c, rest, htake, hstart⟩ := (isName_take h).exists_start
  obtain ⟨more, rfl⟩ := htake ▸ List.take_prefix n cs
  exact ⟨c, rest ++ more, rfl, hstart⟩

theorem takesQuote_take {cs : List Char} {n : Nat} (hstarts : startsLifetime cs = true)
    (h : Literal.length? cs = some n) : TakesQuote (cs.take n) := by
  have hlen : (cs.take n).length = n := List.length_take_of_le (Literal.length?_bounds h).2
  have hread : Literal.length? (cs.take n ++ cs.drop n) = some (cs.take n).length := by
    rw [List.take_append_drop, hlen, h]
  obtain ⟨m, hm, hn⟩ | ⟨⟨c, rest, rfl, hdigit⟩, -⟩ := Literal.length?_eq_some_iff.1 h
  · obtain ⟨mark, hmark, hstart, hle⟩ := exists_letters_quote hstarts hm
    have hshort : (mark ++ ['\x22']).length ≤ n := by
      rw [List.length_append, List.length_singleton]
      omega
    obtain ⟨more, hmore⟩ := List.prefix_take_iff.2 ⟨hstart, hshort⟩
    rw [List.append_assoc, List.singleton_append] at hmore
    rw [← hmore] at hread ⊢
    exact takesQuote_of_letters hmark hread
  · unfold startsLifetime at hstarts
    split at hstarts
    · rename_i hname
      obtain ⟨d, more, hcs, hstart⟩ := exists_identifierStart hname
      obtain ⟨rfl, -⟩ := List.cons.inj hcs
      simp [isDigit_of_identifierStart hstart] at hdigit
    · cases hstarts

-- What one token comes from: the kinds of tokens and what is known of their spelling.
inductive TokenShape (c : Char) (cs : List Char) : Nat → Tree → Prop where
  | literal {n : Nat} (pos : Position) (h : Literal.length? (c :: cs) = some (n + 1)) :
    TokenShape c cs n (.literal (String.ofList ((c :: cs).take (n + 1))) pos)
  | quote (pos : Position) {n : Nat} (hc : c = '\x27') (hstarts : startsLifetime cs = true)
      (h : Literal.length? cs = some n) :
    TokenShape c cs 0 (.punct '\x27' true pos)
  | lifetime {n : Nat} (pos : Position) (hc : c = '\x27') (h : identLength? cs = some n) :
    TokenShape c cs n (.lifetime (String.ofList (cs.take n)) pos)
  | punct (pos : Position) (hquote : c ≠ '\x27') (h : startsOperator (c :: cs) = true) :
    TokenShape c cs 0 (.punct c (startsOperator cs) pos)
  | ident {n : Nat} (pos : Position) (hc : startsOperator (c :: cs) = false)
      (h : identLength? (c :: cs) = some (n + 1)) :
    TokenShape c cs n (.ident { text := String.ofList ((c :: cs).take (n + 1)), pos })

theorem tokenShape {pos : Position} {c : Char} {cs : List Char} {n : Nat} {t : Tree}
    (h : token? pos c cs = some (n, t)) : TokenShape c cs n t := by
  unfold token? at h
  split at h
  · rename_i k hk
    obtain ⟨rfl, rfl⟩ := Prod.mk.inj (Option.some.inj h)
    have hpos := (Literal.length?_bounds hk).1
    obtain ⟨k, rfl⟩ := Nat.exists_eq_add_of_lt hpos
    rw [Nat.zero_add] at hk ⊢
    exact .literal pos hk
  · split at h
    · rename_i hc
      unfold lifetime? at h
      split at h
      · rename_i hstarts
        split at h
        · rename_i hsome
          obtain ⟨k, hk⟩ := Option.isSome_iff_exists.1 hsome
          obtain ⟨rfl, rfl⟩ := Prod.mk.inj (Option.some.inj h)
          exact .quote pos hc hstarts hk
        · obtain ⟨k, hk, heq⟩ := Option.map_eq_some_iff.1 h
          obtain ⟨rfl, rfl⟩ := Prod.mk.inj heq
          exact .lifetime pos hc hk
      · cases h
    · rename_i hc
      split at h
      · rename_i hoperator
        obtain ⟨rfl, rfl⟩ := Prod.mk.inj (Option.some.inj h)
        exact .punct pos hc hoperator
      · rename_i hoperator
        split at h
        · rename_i k hk
          obtain ⟨rfl, rfl⟩ := Prod.mk.inj (Option.some.inj h)
          cases k with
          | zero =>
            obtain ⟨d, more, htake, -⟩ := (isName_take (nameLength?_of_identLength? hk)).exists_start
            cases htake
          | succ k => exact .ident pos (by simpa using hoperator) hk
        · cases h

-- What one item of a text comes from.
inductive ItemShape (pos : Position) (c : Char) (cs : List Char) : Nat → List Lexeme → Prop where
  | blank (n : Nat) : ItemShape pos c cs n []
  | doc (n : Nat) (d : Doc) : ItemShape pos c cs n (d.lexemes pos)
  | broken (n : Nat) :
    ItemShape pos c cs n [.leaf (.literal (String.ofList errorMark) pos)]
  | opening (d : Delimiter) : ItemShape pos c cs 0 [.opening d pos]
  | closing (d : Delimiter) : ItemShape pos c cs 0 [.closing d pos]
  | token {n : Nat} {t : Tree} (h : TokenShape c cs n t) : ItemShape pos c cs n [.leaf t]

theorem itemShape {pos : Position} {c : Char} {cs : List Char} {n : Nat} {ls : List Lexeme}
    (h : item? pos c cs = some (n, ls)) : ItemShape pos c cs n ls := by
  unfold item? at h
  split at h
  · obtain ⟨-, rfl⟩ := Prod.mk.inj (Option.some.inj h)
    exact .blank n
  · split at h
    · obtain ⟨-, rfl⟩ := Prod.mk.inj (Option.some.inj h)
      exact .doc n _
    · split at h
      · obtain ⟨-, rfl⟩ := Prod.mk.inj (Option.some.inj h)
        exact .broken n
      · split at h
        · obtain ⟨rfl, rfl⟩ := Prod.mk.inj (Option.some.inj h)
          exact .opening _
        · obtain ⟨rfl, rfl⟩ := Prod.mk.inj (Option.some.inj h)
          exact .closing _
        · obtain ⟨⟨k, t⟩, hk, heq⟩ := Option.map_eq_some_iff.1 h
          obtain ⟨rfl, rfl⟩ := Prod.mk.inj heq
          exact .token (tokenShape hk)

theorem operatorChars_ne {d : Char} (h : d ∈ operatorChars) : isBlank d = false ∧
    Delimiter.ofOpening? d = none ∧ Delimiter.ofClosing? d = none := by
  revert d
  decide

-- An operator character starts the next token.
theorem head_of_operator {pos : Position} {d : Char} {cs : List Char} {ls : List Lexeme}
    (h : Lexes pos (d :: cs) ls) (hd : d ∈ operatorChars) (hslash : d ≠ '/') :
    ∃ t more, ls = .leaf t :: more ∧ t.chars.head? = some d := by
  cases h with
  | item hitem hrest =>
    obtain ⟨hblank, hopening, hclosing⟩ := operatorChars_ne hd
    rw [item?_eq_token? hslash hblank hopening hclosing] at hitem
    obtain ⟨⟨n, t⟩, ht, heq⟩ := Option.map_eq_some_iff.1 hitem
    obtain ⟨rfl, rfl⟩ := Prod.mk.inj heq
    refine ⟨t, _, rfl, ?_⟩
    cases tokenShape ht with
    | literal pos h => simp [Tree.chars]
    | quote pos hc hstarts h => simp [Tree.chars, hc]
    | lifetime pos hc h => simp [Tree.chars, hc]
    | punct pos hquote h => simp [Tree.chars]
    | ident pos hc h => simp [Tree.chars]

-- A literal is the next token.
theorem head_of_literal {pos : Position} {cs : List Char} {n : Nat} {ls : List Lexeme}
    (h : Lexes pos cs ls) (hn : Literal.length? cs = some n) :
    ∃ place more, ls = .leaf (.literal (String.ofList (cs.take n)) place) :: more := by
  obtain ⟨c, rest, rfl, hslash, hblank, hopening, hclosing⟩ := Literal.of_length? hn
    (P := fun c => c ≠ '/' ∧ isBlank c = false ∧ Delimiter.ofOpening? c = none ∧
      Delimiter.ofClosing? c = none) (by decide) (by decide)
  cases h with
  | item hitem hrest =>
    rw [item?_eq_token? hslash hblank hopening hclosing, token?, hn] at hitem
    obtain ⟨rfl, rfl⟩ := Prod.mk.inj (Option.some.inj hitem)
    exact ⟨pos, _, rfl⟩

theorem legible_doc (d : Doc) (pos : Position) :
    Tree.Legible [.ident { text := "doc", pos }, .punct '=' false pos,
      .literal (String.ofList (Quoted.quote d.content)) pos] := by
  have hname : IsName "doc".toList := .inl (by decide)
  have htext : IsLiteral (String.ofList (Quoted.quote d.content)).toList := by
    rw [String.toList_ofList]
    exact isLiteral_of_length? (Literal.length?_quote _)
  exact .ident hname (.punct (by decide) (by decide) (fun h => absurd h (by decide))
    (.literal htext .nil))

theorem linked_doc (d : Doc) (pos : Position) {rest : List Lexeme} (h : Linked rest) :
    Linked (d.lexemes pos ++ rest) := by
  have hgroup := @Linked.group .bracket _ pos pos _ (legible_doc d pos) h
  have hmark : ∀ {c : Char} {rest}, c = '#' ∨ c = '!' → Linked rest →
      Linked (.leaf (.punct c false pos) :: rest) := fun hc hrest => by
    obtain rfl | rfl := hc <;>
      exact .punct (by decide) (by decide) (fun h => absurd h (by decide)) hrest
  unfold Doc.lexemes
  cases d.inner with
  | false => exact hmark (.inl rfl) hgroup
  | true => exact hmark (.inl rfl) (hmark (.inr rfl) hgroup)

theorem Lexes.linked {pos : Position} {cs : List Char} {ls : List Lexeme} (h : Lexes pos cs ls) :
    Linked ls := by
  induction h with
  | done => exact .nil
  | @item pos c cs n ls rest hitem hrest ih =>
    cases itemShape hitem with
    | blank => exact ih
    | doc _ d => exact linked_doc d pos ih
    | broken => exact .literal (.inr String.toList_ofList) ih
    | opening => exact .opening ih
    | closing => exact .closing ih
    | token ht =>
      cases ht with
      | literal pos h =>
        refine .literal ?_ ih
        rw [String.toList_ofList]
        exact isLiteral_take h
      | quote pos hc hstarts h =>
        obtain ⟨place, more, rfl⟩ := head_of_literal hrest h
        refine .quote ?_ ih
        rw [String.toList_ofList]
        exact takesQuote_take hstarts h
      | lifetime pos hc h =>
        refine .lifetime ?_ ih
        rw [String.toList_ofList]
        exact isName_take (nameLength?_of_identLength? h)
      | ident pos hc h =>
        refine .ident ?_ ih
        rw [String.toList_ofList]
        exact isName_take (nameLength?_of_identLength? h)
      | punct pos hquote h =>
        rw [startsOperator_cons] at h
        obtain ⟨hc, hslash⟩ := Bool.and_eq_true_iff.1 h
        refine .punct (by simpa using hc) hquote (fun hc hjoint => ?_) ih
        -- The character after the slash is an operator, and no comment starts here.
        cases cs with
        | nil => cases hjoint
        | cons d cs =>
          rw [startsOperator_cons] at hjoint
          have hd : d ∈ operatorChars := by simpa using (Bool.and_eq_true_iff.1 hjoint).1
          have hne : d ≠ '/' ∧ d ≠ '*' := by simpa [hc] using hslash
          obtain ⟨t, more, rfl, hlead⟩ := head_of_operator hrest hd hne.1
          exact ⟨t, more, rfl, d, hlead, hne⟩

-- Trees and the lexemes that they are grouped from. A documentation comment is a group of its own.
inductive Flat : List Tree → List Lexeme → Prop where
  | nil : Flat [] []
  | leaf {t : Tree} {trees : List Tree} {ls : List Lexeme} (hrest : Flat trees ls) :
    Flat (t :: trees) (.leaf t :: ls)
  | group {d : Delimiter} {body trees : List Tree} {start stop : Position} {inner ls : List Lexeme}
      (hbody : Flat body inner) (hrest : Flat trees ls) :
    Flat (.group d body start stop :: trees) (.opening d start :: (inner ++ .closing d stop :: ls))

-- What is grouped while some groups are open: the lexemes up to the end of the innermost one, and the
-- rest, with that one closed.
def Groups : List Frame → List Tree → List Lexeme → List Tree → Prop
  | [], done, ls, trees => ∃ more, trees = done.reverse ++ more ∧ Flat more ls
  | f :: frames, done, ls, trees => ∃ more inner stop rest,
    ls = inner ++ .closing f.delimiter stop :: rest ∧ Flat more inner ∧
      group frames (.group f.delimiter (done.reverse ++ more) f.start stop :: f.before) rest =
        some trees

theorem Groups.leaf {frames : List Frame} {t : Tree} {done trees : List Tree} {ls : List Lexeme}
    (h : Groups frames (t :: done) ls trees) : Groups frames done (.leaf t :: ls) trees := by
  cases frames with
  | nil =>
    obtain ⟨more, rfl, hflat⟩ := h
    exact ⟨t :: more, by simp, .leaf hflat⟩
  | cons f frames =>
    obtain ⟨more, inner, stop, rest, rfl, hflat, hgroup⟩ := h
    exact ⟨t :: more, .leaf t :: inner, stop, rest, by simp, .leaf hflat, by simpa using hgroup⟩

theorem Groups.opening {frames : List Frame} {d : Delimiter} {body done trees : List Tree}
    {start stop : Position} {inner rest : List Lexeme} (hbody : Flat body inner)
    (h : Groups frames (.group d body start stop :: done) rest trees) :
    Groups frames done (.opening d start :: (inner ++ .closing d stop :: rest)) trees := by
  cases frames with
  | nil =>
    obtain ⟨more, rfl, hflat⟩ := h
    exact ⟨.group d body start stop :: more, by simp, .group hbody hflat⟩
  | cons f frames =>
    obtain ⟨more, inner', stop', rest', rfl, hflat, hgroup⟩ := h
    exact ⟨.group d body start stop :: more, .opening d start :: (inner ++ .closing d stop :: inner'),
      stop', rest', by simp, .group hbody hflat, by simpa using hgroup⟩

theorem groups_of_group {frames : List Frame} {done trees : List Tree} {ls : List Lexeme}
    (h : group frames done ls = some trees) : Groups frames done ls trees := by
  induction hlen : ls.length using Nat.strong_induction_on generalizing frames done ls with
  | _ n ih =>
    match ls with
    | [] =>
      cases frames with
      | nil =>
        obtain rfl : done.reverse = trees := by simpa [group] using h
        exact ⟨[], by simp, .nil⟩
      | cons f frames => simp [group] at h
    | .leaf t :: ls =>
      rw [group] at h
      exact .leaf (ih ls.length (by simp [← hlen]) h rfl)
    | .opening d pos :: ls =>
      rw [group] at h
      -- First up to the bracket that closes this group, then on from there.
      obtain ⟨body, inner, stop, rest, rfl, hbody, hgroup⟩ := ih ls.length (by simp [← hlen]) h rfl
      refine .opening hbody (ih rest.length ?_ hgroup rfl)
      simp only [← hlen, List.length_cons, List.length_append]
      omega
    | .closing d pos :: ls =>
      cases frames with
      | nil => simp [group] at h
      | cons f frames =>
        rw [group] at h
        split at h
        · rename_i hd
          exact ⟨[], [], pos, ls, by simp [hd], .nil, by simpa [hd] using h⟩
        · cases h

theorem Linked.tail {l : Lexeme} {ls : List Lexeme} (h : Linked (l :: ls)) : Linked ls := by
  cases h with
  | ident _ hrest => exact hrest
  | lifetime _ hrest => exact hrest
  | literal _ hrest => exact hrest
  | punct _ _ _ hrest => exact hrest
  | quote _ hrest => exact hrest
  | group _ hrest => exact hrest
  | opening hrest => exact hrest
  | closing hrest => exact hrest

theorem Linked.suffix {first ls : List Lexeme} (h : Linked (first ++ ls)) : Linked ls := by
  induction first with
  | nil => exact h
  | cons l first ih => exact ih h.tail

-- A lexeme that is no bracket belongs to the first tree.
theorem Flat.exists_leaf {trees : List Tree} {ls more rest : List Lexeme} {t : Tree}
    (h : Flat trees ls) (hmore : ∀ t rest, more ≠ .leaf t :: rest)
    (heq : ls ++ more = .leaf t :: rest) : ∃ trees', trees = t :: trees' := by
  cases h with
  | nil => exact absurd heq (hmore _ _)
  | leaf hrest =>
    obtain ⟨rfl, -⟩ : _ = t ∧ _ := by simpa using heq
    exact ⟨_, rfl⟩
  | group _ _ => simp at heq

theorem Flat.legible {trees : List Tree} {ls : List Lexeme} (h : Flat trees ls) {more : List Lexeme}
    (hmore : ∀ t rest, more ≠ .leaf t :: rest) (hlinked : Linked (ls ++ more)) :
    Tree.Legible trees := by
  induction h generalizing more with
  | nil => exact .nil
  | @leaf t trees ls hflat ih =>
    have hrest := ih hmore hlinked.tail
    rw [List.cons_append] at hlinked
    generalize hall : ls ++ more = all at hlinked
    cases hlinked with
    | ident hname _ => exact .ident hname hrest
    | lifetime hname _ => exact .lifetime hname hrest
    | literal htext _ => exact .literal htext hrest
    | group hbody _ => exact .group hbody hrest
    | punct hc hquote hslash _ =>
      refine .punct hc hquote (fun h hjoint => ?_) hrest
      obtain ⟨u, next, rfl, htakes⟩ := hslash h hjoint
      obtain ⟨trees, rfl⟩ := hflat.exists_leaf hmore hall
      exact htakes.append trees
    | quote htext _ =>
      obtain ⟨trees, rfl⟩ := hflat.exists_leaf hmore hall
      exact .quote htext hrest
  | @group d body trees start stop inner ls hbody hrest ihbody ihrest =>
    simp only [List.cons_append, List.append_assoc] at hlinked
    have hinner := hlinked.tail
    exact .group (ihbody (by simp) hinner) (ihrest hmore hinner.suffix.tail)

end Lexer

-- Trees that a text is read as can be written.
theorem Tree.legible_of_read? {cs : List Char} {trees : List Tree}
    (h : Tree.read? cs = some trees) : Tree.Legible trees := by
  obtain ⟨ls, hls, hgroup⟩ := Option.bind_eq_some_iff.1 h
  have hlexes : ∃ pos cs', Lexes pos cs' ls := by
    unfold lexemes at hls
    split at hls
    · exact ⟨_, _, (lexemesWithin_eq_some_iff le_rfl).1 hls⟩
    · exact ⟨_, _, (lexemesWithin_eq_some_iff le_rfl).1 hls⟩
  obtain ⟨pos, cs', hlexes⟩ := hlexes
  obtain ⟨more, rfl, hflat⟩ := groups_of_group hgroup
  have hlinked : Linked (ls ++ []) := by simpa using hlexes.linked
  exact hflat.legible (by simp) hlinked

end Lifecycle
