import Lifecycle.Proofs.Grammar.Parsing.Expressions

namespace Lifecycle.Grammar

open Text Lifecycle.Tree Lifecycle.Parser

variable {g : Level} {n : Nat} {ts mid rest body : List Tree} {record : Bool}

-- What stands behind a statement: nothing that goes on with a block at its end.
structure EndsStatement (rest : List Tree) : Prop where
  point : isOp ['.'] rest = false
  question : isOp ['?'] rest = false
  semicolon : isOp [';'] rest = false
  orElse : isWord "else" rest = false

theorem EndsStatement.nil : EndsStatement [] :=
  ⟨rfl, rfl, rfl, rfl⟩

theorem EndsStatement.word {name : String} (h : name ≠ "else") (more : List Tree) :
    EndsStatement (.ident { text := name } :: more) :=
  ⟨rfl, rfl, rfl, by simpa [isWord] using h⟩

theorem PlainPath.endsStatement {root : List Tree} {first : String} {more : List String}
    (h : PlainPath root first more) (ts : List Tree) : EndsStatement (pathFrom root first ts) :=
  ⟨h.isOp_start ts (by decide), h.isOp_start ts (by decide), h.isOp_start ts (by decide),
    h.isWord_start ts (by decide)⟩

theorem parses_blockWith {inner : Parser (List Tree)} (hinner : Passes inner body body)
    (hbody : Passes (statements g) body []) (rest : List Tree) :
    Passes (blockWith (.above g) inner) (.group .brace body {} {} :: rest) rest :=
  (Parses.tokensIn (.bind hinner fun _ _ => .bind hbody fun _ _ => .pure trivial) _).passes

theorem parses_plainBlock (hbody : Passes (statements g) body []) (rest : List Tree) :
    Passes (plainBlock (.above g)) (.group .brace body {} {} :: rest) rest :=
  parses_blockWith (.pure trivial) hbody rest

theorem parses_block (hbody : Passes (statements g) body []) (hhash : isOp ['#'] body = false)
    (rest : List Tree) : Passes (block (.above g)) (.group .brace body {} {} :: rest) rest :=
  parses_blockWith (.bind (parses_innerAttributes hhash) fun _ _ => .pure trivial) hbody rest

theorem parses_conditional (hcond : Passes (exprTokens (.above g) false)
      (ts ++ .group .brace body {} {} :: rest) (.group .brace body {} {} :: rest))
    (hbody : Passes (statements g) body []) (hrest : EndsStatement rest) :
    Parses (conditional (.above g))
      (.ident { text := "if" } :: (ts ++ .group .brace body {} {} :: rest)) rest
      fun e => e.form.isBlockLike = true := by
  refine .bind (parses_outerTokens (by simp)) fun attributes _ => ?_
  refine .bind (.repeating_once (Q := fun r => r.2 = false) ?_ fun r hr => ?_) fun r _ =>
    .pure rfl
  · refine .no rfl (.bind (.word _ _) fun _ _ => .bind hcond fun _ _ => ?_)
    exact .bind (parses_plainBlock hbody _) fun _ _ => .peek (.no hrest.orElse (.pure ⟨_, rfl, rfl⟩))
  · exact .yes (by simp [hr]) (.pure rfl)

instance : Blind fun ts => isWord "for" ts && !startsGenericsAfterWord ts := ⟨fun ts => by simp⟩

instance (w : String) : Blind fun ts => isWord w ts && isGroup .brace (ts.drop 1) :=
  ⟨fun ts => by simp⟩

instance : Blind fun ts => (isOp ['.'] ts && !isOp ['.', '.'] ts) || isOp ['?'] ts :=
  ⟨fun ts => by simp⟩

theorem parses_early_of_block (hhash : isOp ['#'] ts = false)
    (h : Parses (earlyStart g) ts rest fun e => e.form.isBlockLike = true)
    (hrest : EndsStatement rest) :
    Parses (early g) ts rest fun e => e.form.isBlockLike = true := by
  refine .bind (parses_outerTokens hhash) fun attributes _ => .bind h fun e he => ?_
  exact .no (by simp [he]) (.peek (.no (by simp [hrest.point, hrest.question]) (.pure he)))

theorem parses_early_block (hbody : Passes (statements g) body []) (hhash : isOp ['#'] body = false)
    (hrest : EndsStatement rest) :
    Parses (early (.above g)) (.group .brace body {} {} :: rest) rest
      fun e => e.form.isBlockLike = true := by
  have hblock : Parses (blockExpr (.above g)) (.group .brace body {} {} :: rest) rest
      fun e => e.form.isBlockLike = true := by
    refine .bind (parses_outerTokens (by simp)) fun _ _ => ?_
    refine .bind (Q := fun _ => True) (.peek (.no rfl (.pure trivial))) fun _ _ => ?_
    exact .bind (parses_block hbody hhash _) fun _ _ => .pure rfl
  refine parses_early_of_block (by simp) ?_ hrest
  refine .peek (.no rfl (.peek (.no rfl (.peek (.no rfl (.peek (.no rfl (.peek (.no rfl ?_)))))))))
  exact .peek (.no rfl (.peek (.no rfl (.peek (.no rfl (.peek (.yes rfl hblock)))))))

theorem parses_early_conditional (hcond : Passes (exprTokens (.above g) false)
      (ts ++ .group .brace body {} {} :: rest) (.group .brace body {} {} :: rest))
    (hbody : Passes (statements g) body []) (hrest : EndsStatement rest) :
    Parses (early (.above g)) (.ident { text := "if" } :: (ts ++ .group .brace body {} {} :: rest)) rest
      fun e => e.form.isBlockLike = true :=
  parses_early_of_block (by simp) (.peek (.yes rfl (parses_conditional hcond hbody hrest))) hrest

-- An arm whose body is a block.
theorem parses_arm (hpattern : Passes (patterns (.ofDepth (n + 1))) ts
      (.punct '=' true {} :: .punct '>' false {} :: .group .brace body {} {} :: rest))
    (hstart : isOp ['#'] ts = false) (hbody : Passes (statements (.ofDepth n)) body [])
    (hhash : isOp ['#'] body = false) (hrest : EndsStatement rest)
    (hcomma : isOp [','] rest = false) :
    Passes (arm (.ofDepth (n + 2))) ts rest := by
  refine .bind (parses_outerTokens hstart) fun _ _ => .bind hpattern fun _ _ => ?_
  refine .peek (.no rfl (.bind (Q := fun _ => True) (.pure trivial) fun _ _ => ?_))
  refine .bind (.op2 _ _ _) fun _ _ => .bind (parses_early_block hbody hhash hrest) fun e he => ?_
  refine .peek (.no (by simp [he]) (.bind (.opOpt_none hcomma) fun _ _ => .pure trivial))

theorem parses_patterns_wildcard :
    Passes (patterns (.above g))
      (.ident { text := "_" } :: .punct '=' true {} :: .punct '>' false {} :: rest)
      (.punct '=' true {} :: .punct '>' false {} :: rest) :=
  .bind (.opOpt_none (by simp)) fun leading hleading => .bind parses_pattern_wildcard fun _ _ =>
    .peek (.yes (by simp [hleading, isBar]) (.pure trivial))

-- A choice by the value of a name.
theorem parses_early_matching {subject : String} (h : subject ∉ keywords) {arms : List Tree}
    (harms : Passes (filling (arm (.ofDepth (n + 2)))) arms []) (hhash : isOp ['#'] arms = false)
    (hrest : EndsStatement rest) :
    Parses (early (.ofDepth (n + 2)))
      (.ident { text := "match" } :: .ident { text := subject } :: .group .brace arms {} {} :: rest)
      rest fun e => e.form.isBlockLike = true := by
  have hsubject : Passes (exprTokens (.ofDepth (n + 2)) false)
      (.ident { text := subject } :: .group .brace arms {} {} :: rest)
      (.group .brace arms {} {} :: rest) :=
    parses_exprTokens ((PlainPath.ofName h).parses_unary (.braces rfl _ _)) (.braces rfl _ _)
  have hbody : Passes (do
      return Attribute.listTokens (← innerAttributes (.ofDepth (n + 2))) ++
        (← filling (arm (.ofDepth (n + 2))))) arms [] :=
    .bind (parses_innerAttributes hhash) fun _ _ => .bind harms fun _ _ => .pure trivial
  have hmatching : Parses (matching (.ofDepth (n + 2)))
      (.ident { text := "match" } :: .ident { text := subject } :: .group .brace arms {} {} :: rest)
      rest fun e => e.form.isBlockLike = true := by
    refine .bind (parses_outerTokens (by simp)) fun _ _ => .bind (.word _ _) fun _ _ => ?_
    exact .bind hsubject fun _ _ => .bind (.tokensIn hbody _) fun _ _ => .pure rfl
  refine parses_early_of_block (by simp) ?_ hrest
  exact .peek (.no rfl (.peek (.no rfl (.peek (.no rfl (.peek (.no rfl (.peek (.yes rfl hmatching)))))))))

-- An expression that starts with a path does not end early.
theorem PlainPath.parses_early {root : List Tree} {first : String} {more : List String}
    (h : PlainPath root first more)
    (hunary : Parses (unary (.ofDepth n) true) (pathFrom root first ts) rest IsSettled)
    (hrest : EndsExpr true rest) : Passes (early (.ofDepth (n + 1))) (pathFrom root first ts) rest := by
  have htry : (isWord "try" (pathFrom root first ts) &&
      isGroup .brace ((pathFrom root first ts).drop 1)) = false := by
    obtain hroot | hroot := h.isRoot
    · simp [hroot, isWord, h.ne_try hroot]
    · simp [hroot, isWord, Code.colons, Code.op2, Tree.operator]
  have hword : ∀ w, w ∈ keywords ∧ w ∉ pathWords → isWord w (pathFrom root first ts) = false :=
    fun w hw => h.isWord_start ts hw
  have hstart : Parses (earlyStart (.ofDepth (n + 1))) (pathFrom root first ts) rest IsSettled := by
    refine .peek (.no (hword _ (by decide)) (.peek (.no (hword _ (by decide)) (.peek (.no ?_ ?_)))))
    · rw [hword _ (by decide), Bool.false_and]
    refine .peek (.no (hword _ (by decide)) (.peek (.no (hword _ (by decide)) ?_)))
    refine .peek (.no htry (.peek (.no (hword _ (by decide)) (.peek (.no ?_ ?_)))))
    · rw [hword _ (by decide), Bool.false_and]
    exact .peek (.no (h.isGroup_start ts _) (.peek (.no (h.isLifetime_start ts) hunary)))
  refine .bind (parses_outerTokens (h.isOp_start ts (by decide))) fun _ _ => .bind hstart fun e he => ?_
  have hsettled : ∀ tokens, IsSettled { e with tokens } := fun _ => he
  cases hform : e.form.isBlockLike with
  | false => exact .yes (by simp [hform]) (parses_climb hrest (hsettled _)).passes
  | true =>
    refine .no (by simp [hform]) (.peek (.no ?_ (.pure trivial)))
    simp [hrest.isOp]

instance : Blind isPlainSegment := ⟨fun ts => by simp [isPlainSegment]⟩

theorem IsSegment.isPlainSegment {name : String} (h : IsSegment name) (htry : name ≠ "try")
    (ts : List Tree) : isPlainSegment (.ident { text := name } :: ts) = true := by
  obtain h | h := h
  · simp [Grammar.isPlainSegment, isIdent, h]
  · have hmem : name ∈ ["super", "self", "Self", "crate"] := by simpa [pathWords, htry] using h
    simp [Grammar.isPlainSegment, isWordOf, hmem]

-- The words of a path, as they are read in search of a `!` form.
theorem parses_namesWith {first : String} {more : List String}
    (hsegments : ∀ n ∈ first :: more, IsSegment n ∧ n ≠ "try") (hend : isOp [':', ':'] rest = false)
    (leading : List Tree) :
    Parses (namesWith isPlainSegment leading) (.ident { text := first } :: (moreNames more ++ rest))
      rest fun r => r.1.isSome = true ∧ r.2 = false := by
  refine .bind (Loops.parses (?_ : Loops _ rest (fun r => r.1 ≠ [] ∧ r.2 = false) _ fun r => r.2 = true)
    _ rfl) fun (done, trailing) ⟨hne, htrailing⟩ => ?_
  · induction more generalizing first with
    | nil =>
      have hfirst := hsegments first List.mem_cons_self
      have hsegment := hfirst.1.isPlainSegment hfirst.2 rest
      refine .next (R := fun r => r.1 ≠ [] ∧ r.2 = false) (fun (done, more) hmore => ?_)
        (by simp [moreNames]) (.stop (fun (done, more) ⟨_, hmore⟩ => ?_) fun _ h => h)
      · refine .peek (.yes (by simpa [moreNames, hsegment] using hmore) ?_)
        exact .bind (.anyIdent _ _) fun _ _ => .peek (.no hend (.pure ⟨_, rfl, by simp⟩))
      · obtain rfl : more = false := hmore
        exact .peek (.no rfl (.pure rfl))
    | cons name more ih =>
      have hfirst := hsegments first List.mem_cons_self
      rw [moreNames_cons]
      refine .next (fun (done, more) hmore => ?_) ?_
        (ih fun n hn => hsegments n (List.mem_cons_of_mem first hn))
      · refine .peek (.yes (by simpa [hfirst.1.isPlainSegment hfirst.2] using hmore) ?_)
        refine .bind (.anyIdent _ _) fun _ _ => .peek (.yes (by simp) ?_)
        exact .bind (.op2 _ _ _) fun _ _ => .pure ⟨_, rfl, rfl⟩
      · simp only [List.length_cons]
        omega
  · obtain ⟨name, names, hdone⟩ := List.exists_cons_of_ne_nil (mt List.reverse_eq_nil_iff.1 hne)
    simp only at hdone htrailing
    simp only [hdone]
    exact .pure ⟨rfl, htrailing⟩

theorem parses_plainPath {root : List Tree} (hroot : IsRoot root) {first : String}
    {more : List String} (hsegments : ∀ n ∈ first :: more, IsSegment n ∧ n ≠ "try")
    (hend : isOp [':', ':'] rest = false) :
    Passes plainPath (pathFrom root first (moreNames more ++ rest)) rest := by
  refine .bind hroot.parses fun leading _ => ?_
  refine .bind (parses_namesWith hsegments hend leading) fun (p, trailing) ⟨hp, htrailing⟩ => ?_
  obtain ⟨p, rfl⟩ := Option.isSome_iff_exists.1 hp
  obtain rfl : trailing = false := htrailing
  exact .pure trivial

-- No path starts with a keyword that is no segment.
theorem fails_plainPath {w : String} (hw : w ∈ keywords)
    (hplain : w ∉ ["super", "self", "Self", "crate"]) :
    Fails plainPath (.ident { text := w } :: ts) := by
  have hsegment : isPlainSegment (.ident { text := w } :: ts) = false := by
    simp [isPlainSegment, isIdent, hw, isWordOf, hplain]
  have hnames : ∀ leading, Parses (namesWith isPlainSegment leading) (.ident { text := w } :: ts)
      (.ident { text := w } :: ts) (·.1 = none) := by
    intro leading
    refine .bind (.repeating_none (.peek (.no (by simp [hsegment]) (.pure rfl)))) ?_
    rintro ⟨done, trailing⟩ hdone
    obtain ⟨rfl, rfl⟩ := Prod.mk.inj hdone
    exact .pure rfl
  refine .bind (.opOpt_none (by simp)) fun leading _ => .bind (hnames leading) ?_
  rintro ⟨p, trailing⟩ hp
  obtain rfl : p = none := hp
  exact .first (.ident_keyword hw) _

-- Whether no `!` form starts a statement.
def StartsNoBang (ts : List Tree) : Prop :=
  Fails plainPath ts ∨ ∃ mid, Passes plainPath ts mid ∧ isOp ['!'] mid = false

theorem StartsNoBang.parses (h : StartsNoBang ts) :
    Parses (attempt? plainPath) ts ts fun r => ∀ p ahead, r = some (p, ahead) →
      bangStatement ahead.trees = .none := by
  rw [← bind_pure (attempt? plainPath)]
  obtain hfails | ⟨mid, hreads, hmid⟩ := h
  · exact hfails.attempt (.pure fun p ahead heq => nomatch heq)
  · refine hreads.attempt fun p ahead _ htrees _ => .pure fun p' ahead' heq => ?_
    obtain ⟨-, rfl⟩ := Prod.mk.inj (Option.some.inj heq)
    have hbang : isOp ['!'] ahead.trees = false := by rw [← isOp_bare, htrees, hmid]
    simp [bangStatement, hbang]

theorem StartsNoBang.of_name {name : String} (h : name ∉ keywords)
    (hcolons : isOp [':', ':'] rest = false) (hbang : isOp ['!'] rest = false) :
    StartsNoBang (.ident { text := name } :: rest) := by
  have hname : ∀ n ∈ [name], IsSegment n ∧ n ≠ "try" := by
    intro n hn
    obtain rfl := List.mem_singleton.1 hn
    exact ⟨.inl h, fun heq => h (heq ▸ by decide)⟩
  have hpath : Passes plainPath (pathFrom [] name (moreNames [] ++ rest)) rest :=
    parses_plainPath (.inl rfl) hname hcolons
  exact .inr ⟨rest, hpath, hbang⟩

instance : Blind startsItem :=
  ⟨fun ts => by simp [startsItem, startsStaticItem, startsConstItem]⟩

-- A value that is thrown away.
theorem parses_localBinding_discard {value : List Tree}
    (h : Parses (unary (.ofDepth n) true) (value ++ .punct ';' false {} :: rest)
      (.punct ';' false {} :: rest) IsSettled) :
    Passes (localBinding (.ofDepth (n + 2))) (.ident { text := "let" } :: .ident { text := "_" } ::
      .punct '=' false {} :: (value ++ .punct ';' false {} :: rest)) rest := by
  have hvalue := parses_exprTokens h (.sign (.inr rfl) rest)
  refine .bind (.word _ _) fun _ _ => .bind parses_pattern_wildcard fun _ _ => ?_
  refine .peek (.no (by simp) (.bind (Q := fun _ => True) (.pure trivial) fun _ _ => ?_))
  refine .peek (.yes (by simp) (.bind (.op1 _ _) fun _ _ => .bind hvalue fun e _ => ?_))
  refine .peek (.no (by simp [isWord]) (.bind (Q := fun _ => True) (.pure trivial) fun _ _ => ?_))
  exact .bind (.op1 _ _) fun _ _ => .pure trivial

-- No item starts with a name that no other name or keyword follows.
theorem startsItem_name {first : String}
    (h : first ∉ keywords ∨ first = "crate" ∧ isOp [':', ':'] rest = true)
    (hrest : isAnyIdent rest = false) : startsItem (.ident { text := first } :: rest) = false := by
  have hwords : ∀ w ∈ ["pub", "extern", "use", "fn", "mod", "type", "struct", "enum", "trait",
      "impl", "macro", "static", "const", "unsafe", "async"], w ∈ keywords ∧ w ≠ "crate" := by
    decide
  have hne : ∀ w ∈ ["pub", "extern", "use", "fn", "mod", "type", "struct", "enum", "trait",
      "impl", "macro", "static", "const", "unsafe", "async"], first ≠ w := by
    rintro w hw rfl
    exact h.elim (· (hwords first hw).1) fun h => (hwords first hw).2 h.1
  have hcrate : first = "crate" → isOp [':', ':'] rest = true := fun heq =>
    h.elim (fun hname => absurd (heq ▸ by decide) hname) (·.2)
  simp only [List.forall_mem_cons] at hne
  rcases rest with _ | ⟨_ | _ | _ | _ | _, rest⟩
  on_goal 2 => simp [isAnyIdent] at hrest
  all_goals simpa [startsItem, isWordOf, isWord, isIdent, startsStaticItem, startsConstItem, hne]
    using hcrate

-- The forms of statements: a binding, one that ends in a block, an expression with a semicolon behind
-- it, and one that ends the block it is in.
inductive StatementForm (g : Level) (ts rest : List Tree) : Prop where
  | binding (hlet : isWord "let" ts = true) (h : Passes (localBinding g) ts rest)
  | block (hlet : isWord "let" ts = false) (hitem : startsItem ts = false)
      (h : Parses g.early ts rest fun e => e.form.isBlockLike = true)
      (hrest : isOp [';'] rest = false)
  | expr (hlet : isWord "let" ts = false) (hitem : startsItem ts = false)
      (h : Passes g.early ts (.punct ';' false {} :: rest))
  | last (hlet : isWord "let" ts = false) (hitem : startsItem ts = false)
      (h : Passes g.early ts rest) (hrest : rest = [])

theorem parses_statement (hbang : StartsNoBang ts) (hhash : isOp ['#'] ts = false)
    (h : StatementForm g ts rest) : Parses (statement g) ts rest fun r => r.2 = true → rest = [] := by
  refine .get fun c _ _ => .bind (parses_outerAttributes hhash) fun attributes _ => ?_
  refine .bind hbang.parses fun r hr => ?_
  -- Whether a path was read in search of a `!` form does not matter from here on.
  rcases r with _ | ⟨p, ahead⟩
  on_goal 1 => refine .bind (Q := (· = .none)) (.pure rfl) fun bang hbang => ?_
  on_goal 2 => refine .bind (Q := (· = .none)) (.pure (hr p ahead rfl)) fun bang hbang => ?_
  all_goals
    subst hbang
    cases h with
    | binding hlet h => exact .peek (.yes hlet (.bind h fun _ _ => .pure (by simp)))
    | block hlet hitem h hrest =>
      refine .peek (.no hlet (.peek (.no hitem (.bind h fun e he => ?_))))
      refine .bind (.opOpt_none hrest) fun semicolon _ => .pure ?_
      have hstatement : e.form.isStatement = true := by
        unfold ExprForm.isStatement
        split
        · rfl
        · exact he
      simp [hstatement]
    | expr hlet hitem h =>
      refine .peek (.no hlet (.peek (.no hitem (.bind h fun e he => ?_))))
      exact .bind (.opOpt (by simp)) fun semicolon hne => .pure (by simp [hne])
    | last hlet hitem h hrest =>
      subst hrest
      refine .peek (.no hlet (.peek (.no hitem (.bind h fun e he => ?_))))
      exact .bind (.opOpt_none (by simp)) fun semicolon _ => .pure fun _ => rfl

-- Trees that are a call, in whatever statement they stand.
structure IsCall (ts : List Tree) : Prop where
  unary : ∀ n rest, EndsExpr true rest →
    Parses (unary (.ofDepth (n + 2)) true) (ts ++ rest) rest IsSettled
  early : ∀ n rest, EndsExpr true rest → Passes (early (.ofDepth (n + 3))) (ts ++ rest) rest
  startsNoBang : ∀ rest, StartsNoBang (ts ++ rest)
  startsItem : ∀ rest, startsItem (ts ++ rest) = false
  hash : ∀ rest, isOp ['#'] (ts ++ rest) = false
  isLet : ∀ rest, isWord "let" (ts ++ rest) = false
  endsStatement : ∀ rest, EndsStatement (ts ++ rest)

-- A path with something behind it that makes it a call.
theorem PlainPath.isCall {first : String} {more : List String} (h : PlainPath [] first more)
    (htry : ∀ n ∈ first :: more, n ≠ "try") {ts : List Tree}
    (hts : ∀ rest, isOp [':', ':'] (ts ++ rest) = false ∧ isOp ['!'] (ts ++ rest) = false)
    (hunary : ∀ n rest, EndsExpr true rest → Parses (unary (.ofDepth (n + 2)) true)
      (pathFrom [] first (moreNames more ++ (ts ++ rest))) rest IsSettled)
    (hitem : ∀ rest, startsItem (pathFrom [] first (moreNames more ++ (ts ++ rest))) = false) :
    IsCall (pathFrom [] first (moreNames more ++ ts)) := by
  have heq : ∀ rest, pathFrom [] first (moreNames more ++ ts) ++ rest =
      pathFrom [] first (moreNames more ++ (ts ++ rest)) := by simp
  refine ⟨fun n rest hrest => ?_, fun n rest hrest => ?_, fun rest => .inr ⟨ts ++ rest, ?_, (hts rest).2⟩,
    fun rest => ?_, fun rest => ?_, fun rest => ?_, fun rest => ?_⟩ <;> rw [heq]
  · exact hunary n rest hrest
  · exact h.parses_early (hunary n rest hrest) hrest
  · exact parses_plainPath h.isRoot (fun n hn => ⟨h.segments n hn, htry n hn⟩) (hts rest).1
  · exact hitem rest
  · exact h.isOp_start _ (by decide)
  · exact h.isWord_start _ (by decide)
  · exact h.endsStatement _

-- Statements one after another, the last of which may need no semicolon.
inductive StatementList (g : Level) : List Tree → Prop where
  | nil : StatementList g []
  | cons {ts mid : List Tree} (hbang : StartsNoBang ts) (hhash : isOp ['#'] ts = false)
      (hstart : EndsStatement ts) (hform : StatementForm g ts mid)
      (hlt : mid.length < ts.length) (hmore : StatementList g mid) : StatementList g ts

theorem parses_semicolons (h : isOp [';'] ts = false) : Parses semicolons ts ts (· = []) :=
  .repeating_none (.peek (.no h (.pure rfl)))

theorem StatementList.parses (h : StatementList g ts) : Passes (statements g) ts [] := by
  by_cases hts : ts = []
  · subst hts
    refine .bind (.repeating_once (Q := fun r => r.2 = false) ?_ fun r hr => ?_) fun _ _ => .pure trivial
    · refine .no rfl (.bind (parses_semicolons (by simp)) fun _ _ => ?_)
      exact .peek (.yes rfl (.pure ⟨_, rfl, rfl⟩))
    · exact .yes (by simp [hr]) (.pure rfl)
  · refine .bind (Loops.parses (?_ : Loops _ [] (fun _ => True) _ fun r => r.2 = true) _ rfl)
      fun _ _ => .pure trivial
    induction h with
    | nil => exact absurd rfl hts
    | @cons ts mid hbang hhash hstart hform hlt hmore ih =>
      have hgoesOn : isEnd ts = false := by simpa [isEnd] using hts
      -- A step goes on if anything is left behind its statement.
      refine .next (R := fun r => r.2 = !isEnd mid) ?_ hlt ?_
      · rintro ⟨done, more⟩ hr
        obtain rfl : more = true := hr
        refine .no rfl (.bind (parses_semicolons hstart.semicolon) fun _ _ =>
          .peek (.no hgoesOn ?_))
        refine .bind (parses_statement hbang hhash hform) ?_
        rintro ⟨s, needsSemicolon⟩ hneeds
        refine .peek (.no ?_ (.peek (.pure ⟨_, rfl, rfl⟩)))
        cases needsSemicolon with
        | false => rfl
        | true => simp [isEnd, hneeds rfl]
      · by_cases hmid : mid = []
        · subst hmid
          refine .stop ?_ fun _ _ => trivial
          rintro ⟨done, more⟩ hr
          exact .yes (by simpa [isEnd] using hr) (.pure rfl)
        · have hgoes : (!isEnd mid) = true := by simpa [isEnd] using hmid
          rw [hgoes]
          exact ih hmid

namespace StatementList

theorem endsStatement (h : StatementList g ts) : EndsStatement ts := by
  cases h with
  | nil => exact .nil
  | cons _ _ hstart => exact hstart

theorem hash (h : StatementList g ts) : isOp ['#'] ts = false := by
  cases h with
  | nil => rfl
  | cons _ hhash => exact hhash

-- A value that is thrown away, in front of other statements.
theorem discard {value : List Tree}
    (h : Parses (unary (.ofDepth n) true) (value ++ .punct ';' false {} :: rest)
      (.punct ';' false {} :: rest) IsSettled) (hrest : StatementList (.ofDepth (n + 2)) rest) :
    StatementList (.ofDepth (n + 2)) (.ident { text := "let" } :: .ident { text := "_" } ::
      .punct '=' false {} :: (value ++ .punct ';' false {} :: rest)) := by
  refine .cons (.inl (fails_plainPath (by decide) (by decide))) (by simp) (.word (by decide) _)
    (.binding rfl (parses_localBinding_discard h)) ?_ hrest
  simp only [List.length_append, List.length_cons]
  omega

theorem call (h : IsCall ts) (hrest : StatementList (.ofDepth (n + 4)) rest) :
    StatementList (.ofDepth (n + 4)) (ts ++ .punct ';' false {} :: rest) := by
  refine .cons (h.startsNoBang _) (h.hash _) (h.endsStatement _)
    (.expr (h.isLet _) (h.startsItem _) (h.early n _ (.sign (.inr rfl) _))) ?_ hrest
  simp only [List.length_append, List.length_cons]
  omega

theorem conditional (hcond : Passes (exprTokens (.ofDepth (n + 1)) false)
      (ts ++ .group .brace body {} {} :: rest) (.group .brace body {} {} :: rest))
    (hbody : StatementList (.ofDepth n) body) (hrest : StatementList (.ofDepth (n + 2)) rest) :
    StatementList (.ofDepth (n + 2))
      (.ident { text := "if" } :: (ts ++ .group .brace body {} {} :: rest)) := by
  refine .cons (.inl (fails_plainPath (by decide) (by decide))) (by simp) (.word (by decide) _)
    (.block rfl (by simp [startsItem, isWordOf, isWord, startsStaticItem, startsConstItem])
      (parses_early_conditional hcond hbody.parses hrest.endsStatement)
      hrest.endsStatement.semicolon) ?_ hrest
  simp only [List.length_append, List.length_cons]
  omega

theorem matching {subject : String} (h : subject ∉ keywords) {arms : List Tree}
    (harms : Filled (arm (.ofDepth (n + 2))) arms) (hhash : isOp ['#'] arms = false)
    (hrest : StatementList (.ofDepth (n + 3)) rest) :
    StatementList (.ofDepth (n + 3))
      (.ident { text := "match" } :: .ident { text := subject } :: .group .brace arms {} {} :: rest) := by
  refine .cons (.inl (fails_plainPath (by decide) (by decide))) (by simp) (.word (by decide) _)
    (.block rfl (by simp [startsItem, isWordOf, isWord, startsStaticItem, startsConstItem])
      (parses_early_matching h harms.parses hhash hrest.endsStatement) hrest.endsStatement.semicolon) ?_ hrest
  simp only [List.length_cons]
  omega

end StatementList

end Lifecycle.Grammar
