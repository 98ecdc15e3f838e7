import Lifecycle.Proofs.Grammar.Parsing.Types

namespace Lifecycle.Grammar

open Text Lifecycle.Tree Lifecycle.Parser

variable {g : Level} {n : Nat} {ts mid rest : List Tree} {record : Bool}

-- No attributes stand in front of most constructs.
theorem parses_outerAttributes (h : isOp ['#'] rest = false) :
    Parses (outerAttributes g) rest rest (· = []) :=
  .bind (.repeating_none (.peek (.no h (.pure rfl)))) fun done hdone => .pure (by simp [hdone])

theorem parses_outerTokens (h : isOp ['#'] rest = false) : Passes (outerTokens g) rest rest :=
  .bind (parses_outerAttributes h) fun _ _ => .pure trivial

theorem parses_innerAttributes (h : isOp ['#'] rest = false) :
    Passes (innerAttributes g) rest rest :=
  .bind (.repeating_none (.peek (.peekAt (.no (by simp [h]) (.pure rfl))))) fun _ _ => .pure trivial

instance : Blind startsPathPattern := ⟨fun ts => by simp [startsPathPattern]⟩

instance : Blind isBar := ⟨fun ts => by simp [isBar]⟩

theorem parses_pattern_wildcard : Passes (pattern g) (.ident { text := "_" } :: rest) rest := by
  refine .get fun c _ _ => .peek (.no ?_ (.peek (.yes rfl (.bind (.word _ _) fun _ _ => .pure trivial))))
  simp [startsPathPattern, isIdent, isWord, isWordOf, keywords]

-- A name, in front of a sign that does not go on with it.
theorem parses_namePattern {name : String} (h : name ∉ keywords) {c : Char} (hc : c ≠ '@')
    (hmut : Passes (wordOpt "mut") ts (.ident { text := name } :: .punct c false {} :: rest))
    (href : isWord "ref" ts = false) : Passes (namePattern g) ts (.punct c false {} :: rest) := by
  refine .bind (.wordOpt_none href) fun _ _ => .bind hmut fun _ _ => ?_
  refine .peek (.no (isWord_name h (by decide) _) (.bind (.ident h _) fun _ _ => ?_))
  refine .peek (.no (by simp [Ne.symm hc]) ?_)
  exact .bind (Q := fun _ => True) (.pure trivial) fun _ _ => .pure trivial

theorem parses_pattern_name {name : String} (h : name ∉ keywords) {c : Char}
    (hc : c ≠ '!' ∧ c ≠ '@') :
    Passes (pattern g) (.ident { text := name } :: .punct c false {} :: rest)
      (.punct c false {} :: rest) := by
  have hpath : startsPathPattern (.ident { text := name } :: .punct c false {} :: rest) = false := by
    simp [startsPathPattern, isWord_name h (show "self" ∈ keywords by decide),
      isWordOf_name h (show ∀ w ∈ ["Self", "super", "crate"], w ∈ keywords by decide), isGroup,
      Ne.symm hc.1]
  have hliteral : isLiteral (.ident { text := name } :: .punct c false {} :: rest) = false :=
    (PlainPath.ofName h).isLiteral_start _
  refine .get fun _ _ _ => .peek (.no hpath (.peek (.no (isWord_name h (by decide) _) ?_)))
  refine .peek (.no (isWord_name h (by decide) _) (.peek (.peek (.peek (.no ?_ ?_)))))
  · simp [hliteral, isWord_name h (show "const" ∈ keywords by decide)]
  · refine .peek (.peek (.yes (by simp [isIdent, h]) ?_))
    exact parses_namePattern h hc.2 (Parses.wordOpt_none (isWord_name h (by decide) _)).passes
      (isWord_name h (by decide) _)

theorem parses_pattern_mut {name : String} (h : name ∉ keywords) {c : Char} (hc : c ≠ '@') :
    Passes (pattern g) (.ident { text := "mut" } :: .ident { text := name } :: .punct c false {} :: rest)
      (.punct c false {} :: rest) := by
  refine .get fun _ _ _ => .peek (.no ?_ (.peek (.no rfl (.peek (.no rfl ?_)))))
  · simp [startsPathPattern, isIdent, isWord, isWordOf, keywords]
  · refine .peek (.peek (.peek (.no rfl (.peek (.peek (.yes rfl ?_))))))
    exact parses_namePattern h hc (Parses.wordOpt _ _).passes rfl

-- A path as the pattern of an arm.
theorem PlainPath.parses_patterns {root : List Tree} {first : String} {names : List String}
    (h : PlainPath root first names) (hne : names ≠ []) :
    Passes (patterns (.above g))
      (pathFrom root first (moreNames names ++ .punct '=' true {} :: .punct '>' false {} :: rest))
      (.punct '=' true {} :: .punct '>' false {} :: rest) := by
  obtain ⟨name, more, rfl⟩ := List.exists_cons_of_ne_nil hne
  have hpath : Passes (path g true) (pathFrom root first
      (moreNames (name :: more) ++ .punct '=' true {} :: .punct '>' false {} :: rest))
      (.punct '=' true {} :: .punct '>' false {} :: rest) :=
    (h.parses_path ⟨by simp, by simp⟩ (by simp)).passes
  rw [moreNames_cons] at hpath ⊢
  have hstart : startsPathPattern (pathFrom root first (.punct ':' true {} :: .punct ':' false {} ::
      .ident { text := name } :: (moreNames more ++ .punct '=' true {} :: .punct '>' false {} :: rest)))
      = true := by
    obtain hroot | hroot := h.isRoot
    · obtain hname | hname := h.isName_start hroot
      · simp [hroot, startsPathPattern, isIdent, hname]
      · simp only [List.mem_cons, List.not_mem_nil, or_false] at hname
        obtain rfl | rfl | rfl | rfl := hname <;> simp [hroot, startsPathPattern, isWord, isWordOf]
    · simp [hroot, startsPathPattern, Code.colons, Code.op2, Tree.operator]
  have hpattern : Passes (patternFromPath g) (pathFrom root first (.punct ':' true {} ::
      .punct ':' false {} :: .ident { text := name } ::
        (moreNames more ++ .punct '=' true {} :: .punct '>' false {} :: rest)))
      (.punct '=' true {} :: .punct '>' false {} :: rest) := by
    refine .bind (Q := fun _ => True) (.peek (.no (h.isOp_start _ (by decide))
      (.bind hpath fun p _ => .pure trivial))) ?_
    rintro ⟨qself, p⟩ -
    refine .peek (.peek (.no (by simp) (.peek (.no rfl (.peek (.no rfl (.peek (.no ?_ ?_))))))))
    · simp
    · exact .pure trivial
  refine .bind (.opOpt_none (h.isOp_start _ (by decide))) fun leading hleading => ?_
  refine .bind (Q := fun _ => True) (.get fun _ _ _ => .peek (.yes hstart hpattern)) fun first _ => ?_
  exact .peek (.yes (by simp [hleading, isBar]) (.pure trivial))

-- What stands behind an expression. A block does so where record literals may not stand.
inductive EndsExpr (record : Bool) : List Tree → Prop where
  | nil : EndsExpr record []
  | sign {c : Char} (hc : c = ',' ∨ c = ';') (more : List Tree) :
    EndsExpr record (.punct c false {} :: more)
  | braces (h : record = false) (body more : List Tree) :
    EndsExpr record (.group .brace body {} {} :: more)

namespace EndsExpr

theorem isOp (h : EndsExpr record rest) {c : Char} {cs : List Char} (hc : c ≠ ',' ∧ c ≠ ';') :
    isOp (c :: cs) rest = false := by
  cases h with
  | nil => simp
  | sign hc' => obtain rfl | rfl := hc' <;> simp [hc]
  | braces => simp

theorem isWord (h : EndsExpr record rest) (w : String) : isWord w rest = false := by
  cases h <;> rfl

theorem isGroup (h : EndsExpr record rest) {d : Delimiter} (hd : d ≠ .brace) :
    isGroup d rest = false := by
  cases h with
  | nil => rfl
  | sign => rfl
  | braces => simpa [Parser.isGroup] using hd

theorem record_eq (h : EndsExpr record rest) : (record && Parser.isGroup .brace rest) = false := by
  cases h with
  | nil => simp [Parser.isGroup]
  | sign => simp [Parser.isGroup]
  | braces hrecord => simp [hrecord]

theorem infixOperator? (h : EndsExpr record rest) : infixOperator? rest = none := by
  have hsigns : ∀ o ∈ infixOperators, o.1.head? ∉ [none, some ',', some ';'] := by decide
  rw [Grammar.infixOperator?, List.find?_eq_none]
  intro o ho
  have hsign := hsigns o ho
  obtain ⟨cs, precedence⟩ := o
  cases cs with
  | nil => simp at hsign
  | cons c cs =>
    have hnone : Parser.isOp (c :: cs) rest = false := h.isOp (by simpa using hsign)
    simp [hnone]

end EndsExpr

theorem infixOperator?_bare (ts : List Tree) : infixOperator? (bare ts) = infixOperator? ts := by
  simp [infixOperator?]

instance : Blind isAssign := ⟨fun ts => by simp [isAssign]⟩

-- A form that no operator or suffix is refused after.
def IsSettled (e : Expr) : Prop :=
  e.form ≠ .range ∧ e.form ≠ .verbatim

theorem parses_climb {base : Nat} (hrest : EndsExpr record rest) {e : Expr} (he : IsSettled e) :
    Parses (climb g record base e) rest rest (· = e) := by
  refine .repeating_none ?_
  unfold climbOnce
  split
  · rename_i hform
    exact absurd hform he.1
  · refine .get fun c hc _ => ?_
    have hnone : infixOperator? c.trees = none := by
      rw [← infixOperator?_bare, hc]
      exact hrest.infixOperator?
    rw [hnone]
    have hassign : isAssign rest = false := by simp [isAssign, hrest.isOp]
    refine .peek (.no (by simp [hassign]) (.peek (.no (by simp [hrest.isOp]) ?_)))
    exact .peek (.no (by simp [hrest.isWord]) (.pure rfl))

theorem parses_suffix_none (hrest : EndsExpr record rest) (e : Expr) :
    Parses (suffix g e) rest rest (· = none) := by
  refine .peek (.no (hrest.isGroup (by decide)) (.peek (.peek (.no ?_ ?_))))
  · simp [hrest.isOp (c := '.') (by decide)]
  · refine .peek (.no (hrest.isGroup (by decide)) (.peek (.no ?_ (.pure rfl))))
    simp [hrest.isOp (c := '?') (by decide)]

theorem parses_fractionIndices {name : String} :
    Parses fractionIndices (.ident { text := name } :: rest) (.ident { text := name } :: rest)
      (· = none) := by
  refine .get fun c hc _ => ?_
  obtain ⟨pos, rest', hc', -⟩ := of_bare_eq_ident hc
  rw [hc']
  exact .pure rfl

theorem parses_member {name : String} (h : name ∉ keywords) :
    Parses member (.ident { text := name } :: rest) rest (·.1 = true) :=
  .peek (.yes (by simp [isIdent, h]) (.bind (.ident h _) fun _ _ => .pure rfl))

-- A point and a name: a method call if arguments follow, a field otherwise.
theorem parses_memberSuffix {name : String} (h : name ∉ keywords) (e : Expr)
    (hmid : isOp [':', ':'] mid = false)
    (hcall : isGroup .paren mid = true → Passes (tokensIn .paren (exprList g)) mid rest)
    (hfield : isGroup .paren mid = false → mid = rest) :
    Parses (memberSuffix g e) (.punct '.' false {} :: .ident { text := name } :: mid) rest IsSettled := by
  refine .bind (.op1 _ _) fun dot _ => .bind parses_fractionIndices fun r hr => ?_
  subst hr
  refine .bind (Q := fun r => r.2 = true) (.pure rfl) fun (start, more) hmore => ?_
  refine .no (by simpa using hmore) (.peek (.no (isWord_name h (by decide) _) ?_))
  refine .bind (parses_member h) fun (named, name) hnamed => .peek (.no (by simp [hmid]) ?_)
  refine .bind (Q := (· = [])) (.pure rfl) fun turbofish hturbofish => .peek ?_
  obtain rfl : named = true := hnamed
  cases hparen : isGroup .paren mid with
  | true =>
    exact .yes (by simp) (.bind (hcall hparen) fun _ _ => .pure ⟨by simp, by simp⟩)
  | false =>
    refine .no (by simp [hturbofish]) ?_
    rw [hfield hparen]
    exact .pure ⟨by simp, by simp⟩

theorem parses_suffix_of_member {name : String} {e : Expr} (he : IsSettled e)
    (h : Parses (memberSuffix g e) (.punct '.' false {} :: .ident { text := name } :: mid) rest
      IsSettled) :
    Parses (suffix g e) (.punct '.' false {} :: .ident { text := name } :: mid) rest
      fun r => ∃ e', r = some e' ∧ IsSettled e' := by
  refine .peek (.no rfl (.peek (.peek (.yes ?_ (.bind h fun e' he' => .pure ⟨e', rfl, he'⟩)))))
  simp only [isOp_punct, beq_self_eq_true, List.isEmpty_nil, List.isEmpty_cons,
    Bool.and_true, Bool.false_and, Bool.or_false, Bool.and_false, Bool.not_false]
  split
  · rename_i hform
    exact absurd hform he.1
  · rfl

-- The suffixes of an expression, one after another.
inductive Suffixes (g : Level) (rest : List Tree) : List Tree → Prop where
  | stop {record : Bool} (hrest : EndsExpr record rest) : Suffixes g rest rest
  | field {name : String} {mid : List Tree} (h : name ∉ keywords)
      (hmore : Suffixes g rest (.punct '.' false {} :: mid)) :
    Suffixes g rest (.punct '.' false {} :: .ident { text := name } :: .punct '.' false {} :: mid)
  | method {name : String} {args mid : List Tree} (h : name ∉ keywords)
      (hargs : Passes (exprList g) args []) (hmore : Suffixes g rest mid) :
    Suffixes g rest
      (.punct '.' false {} :: .ident { text := name } :: .group .paren args {} {} :: mid)
  | call {args mid : List Tree} (hargs : Passes (exprList g) args []) (hmore : Suffixes g rest mid) :
    Suffixes g rest (.group .paren args {} {} :: mid)

theorem Suffixes.nil : Suffixes g [] [] :=
  .stop (EndsExpr.nil : EndsExpr true [])

theorem parses_suffix_call {args : List Tree} (hargs : Passes (exprList g) args []) (e : Expr) :
    Parses (suffix g e) (.group .paren args {} {} :: rest) rest
      fun r => ∃ e', r = some e' ∧ IsSettled e' := by
  refine .peek (.yes rfl (.bind (.tokensIn hargs _) fun _ _ => .pure ⟨_, rfl, ?_⟩))
  exact ⟨by simp, by simp⟩

theorem Suffixes.loops (h : Suffixes g rest ts) :
    Loops (suffix g) rest IsSettled ts IsSettled := by
  induction h with
  | stop hrest => exact .stop (fun e _ => parses_suffix_none hrest e) fun _ he => he
  | @field name mid h _ ih =>
    have hfield : ∀ e, Parses (memberSuffix g e)
        (.punct '.' false {} :: .ident { text := name } :: .punct '.' false {} :: mid)
        (.punct '.' false {} :: mid) IsSettled := fun e =>
      parses_memberSuffix h e (by simp) (fun hparen => nomatch hparen) fun _ => rfl
    exact .next (fun e he => parses_suffix_of_member he (hfield e)) (by simp) ih
  | @method name args mid h hargs _ ih =>
    have hmethod : ∀ e, Parses (memberSuffix g e)
        (.punct '.' false {} :: .ident { text := name } :: .group .paren args {} {} :: mid) mid
        IsSettled := fun e =>
      parses_memberSuffix h e (by simp) (fun _ => (Parses.tokensIn hargs _).passes)
        fun hparen => nomatch hparen
    refine .next (fun e he => parses_suffix_of_member he (hmethod e)) ?_ ih
    simp only [List.length_cons]
    omega
  | call hargs _ ih => exact .next (fun e _ => parses_suffix_call hargs e) (by simp) ih

theorem Suffixes.parses (h : Suffixes g rest ts) {e : Expr} (he : IsSettled e) :
    Parses (suffixes g e) ts rest IsSettled :=
  h.loops.parses e he

instance : Blind startsAsyncBlock := ⟨fun ts => by simp [startsAsyncBlock]⟩

@[simp] theorem startsGenerics_bare (ts : List Tree) :
    startsGenerics (bare ts) = startsGenerics ts := by
  simp [startsGenerics]

instance : Blind startsGenerics := ⟨startsGenerics_bare⟩

@[simp] theorem startsGenericsAfterWord_bare (ts : List Tree) :
    startsGenericsAfterWord (bare ts) = startsGenericsAfterWord ts := by
  rw [startsGenericsAfterWord, drop_bare, startsGenerics_bare, startsGenericsAfterWord]

instance : Blind startsClosure := ⟨fun ts => by simp [startsClosure]⟩

instance : Blind startsPathExpr := ⟨fun ts => by simp [startsPathExpr]⟩

theorem parses_atom_literal (text : String) :
    Parses (atom g record) (.literal text {} :: rest) rest IsSettled :=
  .peek (.yes rfl (.bind (.literal _ _) fun _ _ => .pure ⟨by simp, by simp⟩))

-- What stands behind a path that is an expression or the start of one.
structure EndsPathExpr (record : Bool) (rest : List Tree) : Prop where
  angle : isOp ['<'] rest = false
  colons : isOp [':', ':'] rest = false
  bang : isOp ['!'] rest = false
  hash : isOp ['#'] rest = false
  record_eq : (record && isGroup .brace rest) = false

namespace EndsPathExpr

theorem ofExpr (h : EndsExpr record rest) : EndsPathExpr record rest :=
  ⟨h.isOp (by decide), h.isOp (by decide), h.isOp (by decide), h.isOp (by decide), h.record_eq⟩

theorem parens (args rest : List Tree) : EndsPathExpr record (.group .paren args {} {} :: rest) :=
  ⟨rfl, rfl, rfl, rfl, by simp [isGroup]⟩

theorem point (rest : List Tree) : EndsPathExpr record (.punct '.' false {} :: rest) :=
  ⟨rfl, rfl, rfl, rfl, by simp [isGroup]⟩

end EndsPathExpr

namespace PlainPath

variable {root : List Tree} {first : String} {more : List String} (h : PlainPath root first more)

include h

theorem startsPathExpr_start : startsPathExpr (pathFrom root first ts) = true := by
  obtain hroot | hroot := h.isRoot
  · obtain hname | hname := h.isName_start hroot
    · simp [hroot, startsPathExpr, isIdent, hname]
    · simp only [List.mem_cons, List.not_mem_nil, or_false] at hname
      obtain rfl | rfl | rfl | rfl := hname <;> simp [hroot, startsPathExpr, isWordOf]
  · simp [hroot, startsPathExpr, Code.colons, Code.op2, Tree.operator]

theorem startsClosure_start : startsClosure (pathFrom root first ts) = false := by
  have hwords : ∀ w ∈ ["move", "for", "const", "static", "async"], w ∈ keywords ∧ w ∉ pathWords := by
    decide
  simp [startsClosure, h.isOp_start, h.isWord_start, hwords]

theorem parses_exprFromPath (hrest : EndsPathExpr record rest) :
    Parses (exprFromPath g record) (pathFrom root first (moreNames more ++ rest)) rest IsSettled := by
  have hpath : Passes (path g true) (pathFrom root first (moreNames more ++ rest)) rest :=
    (h.parses_path ⟨hrest.angle, by simp [hrest.colons]⟩ hrest.colons).passes
  have hqualified : Passes (qualifiedPath g true) (pathFrom root first (moreNames more ++ rest)) rest :=
    .peek (.no (h.isOp_start _ (by decide)) (.bind hpath fun p _ => .pure trivial))
  refine .bind hqualified fun (qself, p) _ => .peek (.peek (.no (by simp [hrest.bang]) ?_))
  exact .peek (.no hrest.record_eq (.pure ⟨by simp, by simp⟩))

-- An expression that starts with a path.
theorem parses_atom_of_path (hhash : isOp ['#'] ts = false)
    (hpath : Parses (exprFromPath g record) (pathFrom root first ts) rest IsSettled) :
    Parses (atom g record) (pathFrom root first ts) rest IsSettled := by
  have hasync : startsAsyncBlock (pathFrom root first ts) = false := by
    rw [startsAsyncBlock, h.isWord_start _ (by decide), Bool.false_and]
  -- The word `try` is no block here, since it would be the whole root of the path.
  have htry : (isWord "try" (pathFrom root first ts) &&
      isGroup .brace ((pathFrom root first ts).drop 1)) = false := by
    obtain hroot | hroot := h.isRoot
    · simp [hroot, isWord, h.ne_try hroot]
    · simp [hroot, isWord, Code.colons, Code.op2, Tree.operator]
  have hbuiltin : (isWord "builtin" (pathFrom root first ts) &&
      isOp ['#'] ((pathFrom root first ts).drop 1)) = false := by
    obtain hroot | hroot := h.isRoot
    · simp [hroot, hhash]
    · simp [hroot, isWord, Code.colons, Code.op2, Tree.operator]
  refine .peek (.no (h.isLiteral_start _) (.peek (.no hasync (.peek (.peekAt (.no htry ?_))))))
  refine .peek (.no h.startsClosure_start (.peek (.peekAt (.no hbuiltin ?_))))
  exact .peek (.yes h.startsPathExpr_start hpath)

theorem parses_atom (hrest : EndsPathExpr record rest) :
    Parses (atom g record) (pathFrom root first (moreNames more ++ rest)) rest IsSettled := by
  refine h.parses_atom_of_path ?_ (h.parses_exprFromPath hrest)
  cases more with
  | nil => exact hrest.hash
  | cons name more => simp [moreNames_cons]

end PlainPath

-- Whether no operator in front of an operand starts here, and no attribute.
structure StartsAtom (ts : List Tree) : Prop where
  hash : isOp ['#'] ts = false
  reference : isOp ['&'] ts = false
  sign : (isOp ['*'] ts || isOp ['!'] ts || isOp ['-'] ts) = false

theorem PlainPath.startsAtom {root : List Tree} {first : String} {more : List String}
    (h : PlainPath root first more) (ts : List Tree) : StartsAtom (pathFrom root first ts) :=
  ⟨h.isOp_start ts (by decide), h.isOp_start ts (by decide), by simp [h.isOp_start]⟩

instance : Blind fun ts => isOp ['*'] ts || isOp ['!'] ts || isOp ['-'] ts :=
  ⟨fun ts => by simp⟩

theorem parses_unary (hstart : StartsAtom ts) (hatom : Parses (atom g record) ts mid IsSettled)
    (hsuffixes : Suffixes g rest mid) :
    Parses (unary g record) ts rest IsSettled := by
  refine .get fun c _ _ => .bind (parses_outerTokens hstart.hash) fun attributes _ => ?_
  refine .peek (.no hstart.reference (.peek (.no hstart.sign ?_)))
  refine .bind hatom fun e he => .bind (hsuffixes.parses he) fun e' he' => ?_
  split
  · rename_i hform
    exact absurd hform he'.2
  · rename_i hform
    exact absurd hform he'.1
  · exact .pure he'

theorem parses_expr (h : Parses (unary (.ofDepth n) record) ts rest IsSettled)
    (hrest : EndsExpr record rest) : Parses (expr (.ofDepth (n + 1)) record) ts rest IsSettled :=
  .bind h fun _ he => (parses_climb hrest he).mono fun _ heq => heq ▸ he

theorem parses_exprTokens (h : Parses (unary (.ofDepth n) record) ts rest IsSettled)
    (hrest : EndsExpr record rest) : Passes (exprTokens (.ofDepth (n + 2)) record) ts rest :=
  .bind (parses_expr h hrest) fun _ _ => .pure trivial

-- A path and nothing more.
theorem PlainPath.parses_unary {root : List Tree} {first : String} {more : List String}
    (h : PlainPath root first more) (hrest : EndsExpr record rest) :
    Parses (unary g record) (pathFrom root first (moreNames more ++ rest)) rest IsSettled :=
  Grammar.parses_unary (h.startsAtom _) (h.parses_atom (.ofExpr hrest)) (.stop hrest)

theorem parses_unary_literal (text : String) (hrest : EndsExpr record rest) :
    Parses (unary g record) (.literal text {} :: rest) rest IsSettled :=
  parses_unary ⟨by simp, by simp, by simp⟩ (parses_atom_literal text) (.stop hrest)

theorem parses_exprList {args : List Tree} (h : Listing isEnd [','] (exprTokens g true) [] args) :
    Passes (exprList g) args [] :=
  .bind h.parses fun _ _ => .pure trivial

-- A closure of one parameter.
theorem parses_atom_closure {name : String} (h : name ∉ keywords)
    (hbody : Passes (exprTokens (.ofDepth (n + 1)) record) ts rest)
    (harrow : isOp ['-', '>'] ts = false) :
    Parses (atom (.ofDepth (n + 1)) record)
      (.punct '|' false {} :: .ident { text := name } :: .punct '|' false {} :: ts) rest IsSettled := by
  have hparam : Passes (closureParam (.ofDepth (n + 1)))
      (.ident { text := name } :: .punct '|' false {} :: ts) (.punct '|' false {} :: ts) :=
    .bind (parses_outerTokens (by simp)) fun _ _ => .bind (parses_pattern_name h (by decide)) fun _ _ =>
      .peek (.no (by simp) (.pure trivial))
  have hparams : Passes (separatedTokens (isOp ['|']) [','] (closureParam (.ofDepth (n + 1))))
      (.ident { text := name } :: .punct '|' false {} :: ts) (.punct '|' false {} :: ts) :=
    .bind (Listing.parses (.last (by simp) hparam (by simp) (by simp))) fun _ _ => .pure trivial
  have hclosure : Parses (closure (.ofDepth (n + 1)) record)
      (.punct '|' false {} :: .ident { text := name } :: .punct '|' false {} :: ts) rest IsSettled := by
    refine .bind (Q := fun _ => True) (.peek (.no rfl (.pure trivial))) fun _ _ => ?_
    refine .bind (.wordOpt_none rfl) fun _ _ => .bind (.wordOpt_none rfl) fun _ _ => ?_
    refine .bind (.wordOpt_none rfl) fun _ _ => .bind (.wordOpt_none rfl) fun _ _ => ?_
    refine .bind (.op1 _ _) fun _ _ => .bind hparams fun _ _ => .bind (.op1 _ _) fun _ _ => ?_
    exact .peek (.no harrow (.bind hbody fun _ _ => .pure ⟨by simp, by simp⟩))
  refine .peek (.no rfl (.peek (.no rfl (.peek (.peekAt (.no rfl ?_))))))
  exact .peek (.yes (by simp [startsClosure]) hclosure)

-- A record literal of one field.
theorem parses_atom_record {name field : String} (h : name ∉ keywords) (hfield : field ∉ keywords)
    {value : List Tree} (hvalue : Passes (exprTokens g true) value []) :
    Parses (atom g true) (.ident { text := name } ::
      .group .brace (.ident { text := field } :: .punct ':' false {} :: value) {} {} :: rest) rest
      IsSettled := by
  have hname := PlainPath.ofName h
  have hvalues : Passes (fieldValue g) (.ident { text := field } :: .punct ':' false {} :: value) [] := by
    refine .bind (parses_outerTokens (by simp)) fun _ _ => .bind (parses_member hfield) fun _ _ => ?_
    exact .peek (.yes (by simp) (.bind (.op1 _ _) fun _ _ => .bind hvalue fun _ _ => .pure trivial))
  have hfields : Passes (fieldValues g) (.ident { text := field } :: .punct ':' false {} :: value) [] := by
    refine .bind (.repeating_once (Q := fun r => r.2 = false) ?_ fun r hr => ?_)
      fun _ _ => .pure trivial
    · refine .peek (.no rfl (.peek (.no (by simp) (.bind hvalues fun _ _ => ?_))))
      exact .peek (.yes rfl (.pure ⟨_, rfl, rfl⟩))
    · exact .peek (.yes (by simp [hr]) (.pure rfl))
  generalize .ident { text := field } :: .punct ':' false {} :: value = body at hfields
  have hpath : Passes (path g true) (.ident { text := name } :: .group .brace body {} {} :: rest)
      (.group .brace body {} {} :: rest) :=
    (hname.parses_path ⟨rfl, by simp⟩ rfl).passes
  have hqualified : Passes (qualifiedPath g true)
      (.ident { text := name } :: .group .brace body {} {} :: rest)
      (.group .brace body {} {} :: rest) :=
    .peek (.no rfl (.bind hpath fun p _ => .pure trivial))
  refine hname.parses_atom_of_path (by simp) (.bind hqualified fun (qself, p) _ => ?_)
  refine .peek (.peek (.no (by simp) (.peek (.yes rfl ?_))))
  exact .bind (.tokensIn hfields _) fun _ _ => .pure ⟨by simp, by simp⟩

end Lifecycle.Grammar
