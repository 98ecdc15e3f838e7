import Lifecycle.Proofs.Grammar.Parsing.Statements

namespace Lifecycle.Grammar

open Text Lifecycle.Tree Lifecycle.Parser

variable {g : Level} {n : Nat} {ts mid rest body : List Tree}

theorem parses_generics_none (h : isOp ['<'] rest = false) : Passes (generics g) rest rest :=
  .peek (.no h (.pure trivial))

theorem parses_generics_lifetime (name : String) (rest : List Tree) :
    Passes (generics g) (angles [.lifetime name {}] ++ rest) rest := by
  have hparam : Passes (genericParam g) (.lifetime name {} :: .punct '>' false {} :: rest)
      (.punct '>' false {} :: rest) := by
    refine .bind (parses_outerTokens (by simp)) fun _ _ => .peek (.yes rfl ?_)
    refine .bind (.lifetime _ _) fun _ _ => .bind (Q := fun _ => True) ?_ fun _ _ => .pure trivial
    exact .peek (.no (by simp) (.pure trivial))
  refine .peek (.yes (by simp [angles]) (.bind (.op1 _ _) fun _ _ => ?_))
  refine .bind (Listing.parses (.last (by simp) hparam (by simp) (by simp))) fun _ _ => ?_
  exact .bind (.op1 _ _) fun _ _ => .pure trivial

theorem parses_whereClause_none (h : isWord "where" rest = false) :
    Parses (whereClause g) rest rest (·.isWritten = false) :=
  .peek (.no h (.pure rfl))

instance : Blind endsPredicate := ⟨fun ts => by simp [endsPredicate]⟩

-- A clause by which a name outlives a lifetime.
theorem parses_whereClause_lifetime {bounded : String} (h : IsSegment bounded)
    (htry : bounded ≠ "try") (name : String) (rest : List Tree) :
    Passes (whereClause (.above g)) (.ident { text := "where" } :: .ident { text := bounded } ::
      .punct ':' false {} :: .lifetime name {} :: .punct ';' false {} :: rest)
      (.punct ';' false {} :: rest) := by
  have hbounded : PlainPath [] bounded [] :=
    ⟨.inl rfl, fun n hn => List.mem_singleton.1 hn ▸ h, fun _ => htry⟩
  have hty : Passes (ty g true) (.ident { text := bounded } :: .punct ':' false {} ::
      .lifetime name {} :: .punct ';' false {} :: rest)
      (.punct ':' false {} :: .lifetime name {} :: .punct ';' false {} :: rest) :=
    (hbounded.parses_ty (.punct (by decide) _)).passes
  have hbounds : Passes (paramBounds (.above g) endsPredicate)
      (.lifetime name {} :: .punct ';' false {} :: rest) (.punct ';' false {} :: rest) :=
    .bind (.chained (by simp [endsPredicate, isEnd, isGroup]) (parses_bound_lifetime _ _ _) (by simp))
      fun _ _ => .pure trivial
  have hpredicate : Passes (predicate (.above g)) (.ident { text := bounded } ::
      .punct ':' false {} :: .lifetime name {} :: .punct ';' false {} :: rest)
      (.punct ';' false {} :: rest) := by
    refine .peek (.peekAt (.no rfl (.bind (hbounded.parses_boundLifetimesOpt _) fun _ _ => ?_)))
    exact .bind hty fun _ _ => .bind (.op1 _ _) fun _ _ => .bind hbounds fun _ _ => .pure trivial
  refine .peek (.yes rfl (.bind (.word _ _) fun _ _ => .peek (.no (by simp [startsGenerics]) ?_)))
  refine .bind (.chained ?_ hpredicate (by simp)) fun _ _ => .pure trivial
  simp [endsPredicate, isEnd, isGroup]

theorem parses_metaValue (text : String) : Passes (metaValue g) [.literal text {}] [] := by
  refine .get fun c hc _ => ?_
  obtain ⟨pos, rest, htrees, hrest⟩ := of_bare_eq_literal hc
  obtain rfl : rest = [] := bare_eq_nil_iff.1 hrest
  have hliteral : literal? c.trees = some (Literal.ofText text, 1) := by rw [htrees]; rfl
  rw [hliteral]
  refine .get fun c' hc' _ => ?_
  have hlength : c'.trees.length = 1 := by rw [← length_bare, hc']; rfl
  exact (if_pos hlength).symm ▸ .bind (.literal _ _) fun _ _ => .pure trivial

-- A comment on what follows.
theorem parses_outerTokens_doc (text : String) (h : isOp ['#'] rest = false) :
    Passes (outerTokens g) (.punct '#' false {} :: .group .bracket
      [.ident { text := "doc" }, .punct '=' false {}, .literal text {}] {} {} :: rest) rest := by
  have hpath : Passes plainPath [.ident { text := "doc" }, .punct '=' false {}, .literal text {}]
      [.punct '=' false {}, .literal text {}] := by
    have hname : ∀ n ∈ ["doc"], IsSegment n ∧ n ≠ "try" := by
      intro n hn
      obtain rfl := List.mem_singleton.1 hn
      exact ⟨.inl (by decide), by decide⟩
    exact parses_plainPath (.inl rfl) hname (by simp)
  have hcontent : Passes (attributeContent g)
      [.ident { text := "doc" }, .punct '=' false {}, .literal text {}] [] := by
    refine .peek (.no rfl (.bind hpath fun p _ => .peek (.no rfl (.peek (.yes (by simp) ?_)))))
    exact .bind (.op1 _ _) fun _ _ => .bind (parses_metaValue text) fun _ _ => .pure trivial
  have hattribute : Passes (attributeWith g (pure [])) (.punct '#' false {} :: .group .bracket
      [.ident { text := "doc" }, .punct '=' false {}, .literal text {}] {} {} :: rest) rest := by
    refine .bind (.op1 _ _) fun _ _ => .bind (Q := fun _ => True) (.pure trivial) fun _ _ => ?_
    exact .bind (.inGroup hcontent _) fun _ _ => .pure trivial
  have hattributes : Passes (outerAttributes g) (.punct '#' false {} :: .group .bracket
      [.ident { text := "doc" }, .punct '=' false {}, .literal text {}] {} {} :: rest) rest := by
    refine .bind (.repeating_once (Q := fun _ => True) ?_ fun _ _ => .peek (.no h (.pure rfl)))
      fun _ _ => .pure trivial
    exact .peek (.yes (by simp) (.bind hattribute fun _ _ => .pure ⟨_, rfl, trivial⟩))
  exact .bind hattributes fun _ _ => .pure trivial

theorem parses_visibility_none (h : isWord "pub" rest = false) :
    Parses visibility rest rest (· = []) :=
  .peek (.no h (.pure rfl))

theorem parses_visibility_pub {name : String} :
    Passes visibility (.ident { text := "pub" } :: .ident { text := name } :: rest)
      (.ident { text := name } :: rest) := by
  have hrestriction : Passes restriction (.ident { text := name } :: rest)
      (.ident { text := name } :: rest) := by
    refine .get fun c hc _ => ?_
    obtain ⟨pos, rest', hc', -⟩ := of_bare_eq_ident hc
    rw [hc']
    exact .pure trivial
  exact .peek (.yes rfl (.bind (.word _ _) fun _ _ => .bind hrestriction fun _ _ => .pure trivial))

instance : Blind fun ts => isWord "struct" ts || (isWord "union" ts && isGroup .brace (ts.drop 1)) :=
  ⟨fun ts => by simp⟩

-- A structure with a lifetime and one field.
theorem parses_structItem {name field : String} (h : name ∉ keywords) (hfield : field ∉ keywords)
    (lifetime : String) {fieldTy : List Tree}
    (hty : Passes (ty g true) (fieldTy ++ [.punct ',' false {}]) [.punct ',' false {}])
    (attributes : List Tree) :
    Passes (structItem (.above g) attributes)
      (.ident { text := "pub" } :: .ident { text := "struct" } :: .ident { text := name } ::
        (angles [.lifetime lifetime {}] ++ .group .brace (.ident { text := field } ::
          .punct ':' false {} :: (fieldTy ++ [.punct ',' false {}])) {} {} :: rest)) rest := by
  have hnamed : Passes (namedField (.above g)) (.ident { text := field } :: .punct ':' false {} ::
      (fieldTy ++ [.punct ',' false {}])) [.punct ',' false {}] := by
    refine .bind (parses_outerTokens (by simp)) fun _ _ => ?_
    refine .bind (parses_visibility_none (isWord_name hfield (by decide) _)) fun _ _ => ?_
    have hunnamed : isWord "_" (.ident { text := field } :: .punct ':' false {} ::
        (fieldTy ++ [.punct ',' false {}])) = false := isWord_name hfield (by decide) _
    refine .peek (.no hunnamed (.bind (.ident hfield _) fun _ _ => .bind (.op1 _ _) fun _ _ => ?_))
    refine .bind (Q := fun _ => True) (.peek (.no ?_ ?_)) fun _ _ => .pure trivial
    · rw [hunnamed, Bool.false_and]
    · exact .bind hty fun _ _ => .pure trivial
  have hfields : Passes (namedFields (.above g)) (.group .brace (.ident { text := field } ::
      .punct ':' false {} :: (fieldTy ++ [.punct ',' false {}])) {} {} :: rest) rest := by
    have hlisting : Passes (separatedTokens isEnd [','] (namedField (.above g)))
        (.ident { text := field } :: .punct ':' false {} :: (fieldTy ++ [.punct ',' false {}])) [] :=
      .bind (Listing.parses (.next rfl hnamed rfl (.op1 _ _) (by simp) (.stop rfl)))
        fun _ _ => .pure trivial
    exact (Parses.tokensIn hlisting _).passes
  refine .bind parses_visibility_pub fun _ _ => .bind (.word _ _) fun _ _ => ?_
  refine .bind (.ident h _) fun _ _ => .bind (parses_generics_lifetime _ _) fun _ _ => ?_
  refine .bind (Q := fun _ => True) (.peek ?_) fun _ _ => .pure trivial
  refine .bind (parses_whereClause_none rfl) fun _ _ => .peek (.no rfl (.peek (.yes rfl ?_)))
  exact .bind hfields fun _ _ => .pure trivial

theorem afterWord_bare (w : String) (ts : List Tree) :
    afterWord w (bare ts) = bare (afterWord w ts) := by
  simp only [afterWord, isWord_bare]
  split <;> simp

theorem afterAbi_bare (ts : List Tree) : afterAbi (bare ts) = bare (afterAbi ts) := by
  have hstring : isString (bare ts.tail) = isString ts.tail := by simp [isString, literal?_bare]
  simp only [afterAbi, isWord_bare, List.drop_one, tail_bare, hstring]
  split
  · split <;> simp
  · rfl

instance (safe : Bool) : Blind (startsSignature safe) := by
  refine ⟨fun ts => ?_⟩
  simp only [startsSignature, afterWord_bare, isWord_bare, drop_bare]
  split <;> simp [afterAbi_bare]

instance : Blind startsDefault := ⟨fun ts => by simp [startsDefault]⟩

instance : Blind fun ts => isIdent ts && isOp ['<'] (ts.drop 1) := ⟨fun ts => by simp⟩

theorem parses_selfParam (attributes : List Attribute) :
    Passes (selfParam g attributes)
      (.punct '&' false {} :: .ident { text := "mut" } :: .ident { text := "self" } :: rest) rest := by
  refine .bind (.opOpt (by simp)) fun mark hmark => .no (by simpa using hmark) ?_
  refine .bind (.lifetimeOpt_none rfl) fun _ _ => .bind (.wordOpt _ _) fun _ _ => ?_
  refine .bind (.word _ _) fun _ _ => .peek (.no (by simp [hmark]) ?_)
  exact .bind (Q := fun _ => True) (.pure trivial) fun _ _ => .pure trivial

theorem parses_param_receiver (attributes : List Attribute) :
    Parses (param g attributes)
      (.punct '&' false {} :: .ident { text := "mut" } :: .ident { text := "self" } :: rest) rest
      fun r => ∃ p, r = .inl (.receiver p) :=
  (parses_selfParam attributes).attempt fun p _ _ htrees hleft => .set htrees hleft (.pure ⟨p, rfl⟩)

-- A name, perhaps marked as mutable, with its type.
theorem parses_param_typed {name : String} (h : name ∉ keywords) {mark : List Tree}
    (hmark : mark = [] ∨ mark = [.ident { text := "mut" }])
    (hty : Passes (ty g true) ts rest) (hdots : isOp ['.', '.', '.'] ts = false)
    (attributes : List Attribute) :
    Parses (param (.above g) attributes) (mark ++ .ident { text := name } :: .punct ':' false {} :: ts)
      rest fun r => ∃ before ty, r = .inl (.typed before ty) := by
  have hpattern : Passes (pattern g)
      (mark ++ .ident { text := name } :: .punct ':' false {} :: ts) (.punct ':' false {} :: ts) := by
    obtain rfl | rfl := hmark
    · exact parses_pattern_name h (by decide)
    · exact parses_pattern_mut h (by decide)
  have hself : Fails (selfParam (.above g) attributes)
      (mark ++ .ident { text := name } :: .punct ':' false {} :: ts) := by
    have hmut : Passes (wordOpt "mut") (mark ++ .ident { text := name } :: .punct ':' false {} :: ts)
        (.ident { text := name } :: .punct ':' false {} :: ts) := by
      obtain rfl | rfl := hmark
      · exact (Parses.wordOpt_none (isWord_name h (by decide) _)).passes
      · exact (Parses.wordOpt _ _).passes
    have hmarkOp : isOp ['&'] (mark ++ .ident { text := name } :: .punct ':' false {} :: ts) = false := by
      obtain rfl | rfl := hmark <;> simp
    refine .bind (.opOpt_none hmarkOp) fun _ hnone => ?_
    subst hnone
    refine .bind (Q := fun _ => True) (.pure trivial) fun _ _ => .bind hmut fun _ _ => ?_
    exact .first (.word (isWord_name h (by decide) _)) _
  have hgeneric : (isIdent (mark ++ .ident { text := name } :: .punct ':' false {} :: ts) &&
      isOp ['<'] ((mark ++ .ident { text := name } :: .punct ':' false {} :: ts).drop 1)) = false := by
    obtain rfl | rfl := hmark <;> simp
  refine hself.attempt (.peek (.no hgeneric (.bind hpattern fun _ _ => .bind (.op1 _ _) fun _ _ => ?_)))
  exact .peek (.no hdots (.bind hty fun ty _ => .pure ⟨_, ty, rfl⟩))

-- Parameters with their types, each with a comma behind it.
inductive TypedParams (g : Level) : List Tree → Prop where
  | nil : TypedParams g []
  | cons {ts more : List Tree} (hhash : isOp ['#'] ts = false) (hdots : isOp ['.', '.', '.'] ts = false)
      (hparam : ∀ attributes, Parses (param g attributes) ts (.punct ',' false {} :: more)
        fun r => ∃ before ty, r = .inl (.typed before ty))
      (hlt : more.length < ts.length) (hmore : TypedParams g more) : TypedParams g ts

theorem TypedParams.typed {name : String} (h : name ∉ keywords) {mark more : List Tree}
    (hmark : mark = [] ∨ mark = [.ident { text := "mut" }])
    (hty : Passes (ty g true) ts (.punct ',' false {} :: more))
    (hdots : isOp ['.', '.', '.'] ts = false) (hlt : more.length < ts.length)
    (hmore : TypedParams (.above g) more) :
    TypedParams (.above g) (mark ++ .ident { text := name } :: .punct ':' false {} :: ts) := by
  refine .cons ?_ ?_ (parses_param_typed h hmark hty hdots) ?_ hmore
  · obtain rfl | rfl := hmark <;> simp
  · obtain rfl | rfl := hmark <;> simp
  · simp only [List.length_append, List.length_cons]
    omega

theorem parses_commaUnlessEnd (more : List Tree) :
    Passes commaUnlessEnd (.punct ',' false {} :: more) more :=
  .peek (.no rfl (Parses.op1 ',' more).passes)

theorem parses_checkOrder_nil (p : Param) : Passes (checkOrder [] p) ts ts := by
  cases p <;> exact .pure trivial

-- The parameters of a method that changes the object it is called on.
theorem parses_params (h : TypedParams g ts) :
    Passes (params g) (.punct '&' false {} :: .ident { text := "mut" } :: .ident { text := "self" } ::
      .punct ',' false {} :: ts) [] := by
  refine .bind (Loops.parses (?_ : Loops _ [] (fun _ => True) _ (· = ([], [], true))) _ rfl)
    fun _ _ => .pure trivial
  refine .next ?_ ?_ (?_ : Loops _ [] (fun _ => True) ts fun r => r.2.2 = true)
  · rintro _ rfl
    refine .peek (.no rfl (.bind (parses_outerAttributes (by simp)) fun _ _ => .peek (.no (by simp) ?_)))
    refine .bind (parses_param_receiver _) ?_
    rintro _ ⟨p, rfl⟩
    refine .bind (parses_checkOrder_nil _) fun _ _ => ?_
    exact .peek (.bind (parses_commaUnlessEnd _) fun _ _ => .pure ⟨_, rfl, rfl⟩)
  · simp only [List.length_cons]
    omega
  · induction h with
    | nil =>
      refine .stop ?_ fun _ _ => trivial
      rintro ⟨done, variadic, more⟩ hr
      exact .peek (.yes (by simp [isEnd]) (.pure rfl))
    | @cons ts more hhash hdots hparam hlt hmore ih =>
      have hstart : isEnd ts = false := by
        cases ts with
        | nil => simp at hlt
        | cons => rfl
      refine .next ?_ hlt ih
      rintro ⟨done, variadic, more⟩ hr
      obtain rfl : more = true := hr
      refine .peek (.no (by simp [hstart]) (.bind (parses_outerAttributes hhash) fun _ _ => ?_))
      refine .peek (.no hdots (.bind (hparam _) ?_))
      rintro _ ⟨before, ty, rfl⟩
      refine .bind (Q := fun _ => True) (.pure trivial) fun _ _ => .peek ?_
      exact .bind (parses_commaUnlessEnd _) fun _ _ => .pure ⟨_, rfl, rfl⟩

-- The parameters of a method that has no others.
theorem parses_params_receiver :
    Passes (params g) [.punct '&' false {}, .ident { text := "mut" }, .ident { text := "self" }] [] := by
  refine .bind (.repeating_once (Q := fun r => r.2.2 = false) ?_ fun r hr => ?_) fun _ _ => .pure trivial
  · refine .peek (.no rfl (.bind (parses_outerAttributes (by simp)) fun _ _ => .peek (.no (by simp) ?_)))
    refine .bind (parses_param_receiver _) fun r ⟨p, hp⟩ => ?_
    subst hp
    refine .bind (parses_checkOrder_nil _) fun _ _ => ?_
    have hcomma : Passes commaUnlessEnd [] [] := .peek (.yes rfl (.pure trivial))
    exact .peek (.bind hcomma fun _ _ => .pure ⟨_, rfl, rfl⟩)
  · exact .peek (.yes (by simp [hr]) (.pure rfl))

-- What stands between the parameters of a method and its body: nothing, or a type behind an arrow.
inductive Output (g : Level) (rest : List Tree) : List Tree → Prop where
  | nothing (h : isOp ['-', '>'] rest = false) : Output g rest rest
  | type {ts : List Tree} (h : Passes (g.ty true) ts rest) :
    Output g rest (.punct '-' true {} :: .punct '>' false {} :: ts)

theorem parses_signature {name : String} (h : name ∉ keywords) {ps : List Tree}
    (hparams : Passes (params g) ps []) (houtput : Output g rest ts)
    (hrest : isWord "where" rest = false) :
    Passes (signature g)
      (.ident { text := "fn" } :: .ident { text := name } :: .group .paren ps {} {} :: ts) rest := by
  refine .bind (.wordOpt_none rfl) fun _ _ => .bind (.wordOpt_none rfl) fun _ _ => ?_
  refine .bind (.wordOpt_none rfl) fun _ _ => .bind (.peek (.no rfl (.pure rfl))) fun _ _ => ?_
  refine .bind (.word _ _) fun _ _ => .bind (.ident h _) fun _ _ => ?_
  refine .bind (parses_generics_none (by simp)) fun _ _ => .bind (.inGroup hparams _) fun _ _ => ?_
  have hwhere : Passes (whereClause g) rest rest := (parses_whereClause_none hrest).passes
  cases houtput with
  | nothing h =>
    refine .peek (.no h (.bind (Q := fun _ => True) (.pure trivial) fun _ _ => ?_))
    exact .bind hwhere fun _ _ => .pure trivial
  | type h =>
    refine .peek (.yes (by simp) (.bind (.op2 _ _ _) fun _ _ => .bind h fun _ _ => ?_))
    refine .bind (Q := fun _ => True) (.pure trivial) fun _ _ => ?_
    exact .bind hwhere fun _ _ => .pure trivial

-- A method that has neither a visibility nor attributes.
theorem parses_implItem_method {name : String} (h : name ∉ keywords) {ps : List Tree}
    (hparams : Passes (params g) ps [])
    (houtput : Output g (.group .brace body {} {} :: rest) ts)
    (hbody : Passes g.statements body []) (hhash : isOp ['#'] body = false) :
    Passes (implItem g)
      (.ident { text := "fn" } :: .ident { text := name } :: .group .paren ps {} {} :: ts) rest := by
  have hinner : Passes (do return (← innerAttributes g, ← g.statements)) body [] :=
    .bind (parses_innerAttributes hhash) fun _ _ => .bind hbody fun _ _ => .pure trivial
  have hmethod : ∀ start attributes, Passes (method g start attributes)
      (.ident { text := "fn" } :: .ident { text := name } :: .group .paren ps {} {} :: ts) rest := by
    refine fun start attributes => .bind (parses_visibility_none rfl) fun _ _ => ?_
    refine .bind (.wordOpt_none rfl) fun _ _ => ?_
    refine .bind (parses_signature h hparams houtput rfl) fun _ _ => .peek (.no (by simp) ?_)
    exact .bind (.inGroup hinner _) fun _ _ => .pure trivial
  refine .get fun start _ _ => .bind (parses_outerAttributes (by simp)) fun attributes _ => ?_
  refine .get fun after hafter hleft => .bind (parses_visibility_none rfl) fun _ hbare => ?_
  refine .peek (.no (by simp [startsDefault, isWord]) (.bind (Q := (· = [])) (.pure rfl) fun _ _ => ?_))
  refine .peek (.yes rfl (.set hafter hleft (hmethod _ _)))

-- A type that is defined for one lifetime, in which some name has to live.
theorem parses_implItem_type {name : String} (h : name ∉ keywords) {lifetime bounded : String}
    (hbounded : IsSegment bounded) (htry : bounded ≠ "try") {definition clause : List Tree}
    (hclause : clause = [.ident { text := "where" }, .ident { text := bounded },
      .punct ':' false {}, .lifetime lifetime {}])
    (hty : Passes (ty g true) (definition ++ (clause ++ .punct ';' false {} :: rest))
      (clause ++ .punct ';' false {} :: rest)) :
    Passes (implItem (.above g))
      (.ident { text := "type" } :: .ident { text := name } :: (angles [.lifetime lifetime {}] ++
        .punct '=' false {} :: (definition ++ (clause ++ .punct ';' false {} :: rest)))) rest := by
  have hwhere : Passes (whereClause (.above g)) (clause ++ .punct ';' false {} :: rest)
      (.punct ';' false {} :: rest) := by
    subst hclause
    exact parses_whereClause_lifetime hbounded htry _ _
  have htypeItem : Parses (typeItem (.above g) false true)
      (.ident { text := "type" } :: .ident { text := name } :: (angles [.lifetime lifetime {}] ++
        .punct '=' false {} :: (definition ++ (clause ++ .punct ';' false {} :: rest)))) rest
      fun t => t.definition ≠ [] ∧ t.colon = [] := by
    refine .bind (.word _ _) fun _ _ => .bind (.ident h _) fun _ _ => ?_
    refine .bind (parses_generics_lifetime _ _) fun _ _ => .bind (.opOpt_none (by simp)) fun colon hcolon => ?_
    subst hcolon
    refine .bind (Q := fun _ => True) (.pure trivial) fun _ _ => ?_
    refine .bind (Q := fun w => w.isWritten = false) (.pure rfl) fun _ hunwritten => ?_
    refine .peek (.yes (by simp) (.bind (.op1 _ _) fun _ hne => .bind hty fun _ _ => ?_))
    refine .bind (Q := (· ≠ [])) (.pure (by simp [hne])) fun _ hdefinition => ?_
    refine .yes (by simp [hunwritten]) (.bind hwhere fun _ _ => .bind (.op1 _ _) fun _ _ => ?_)
    exact .pure ⟨hdefinition, rfl⟩
  have himplType : ∀ start attributes, Passes (implType (.above g) start attributes)
      (.ident { text := "type" } :: .ident { text := name } :: (angles [.lifetime lifetime {}] ++
        .punct '=' false {} :: (definition ++ (clause ++ .punct ';' false {} :: rest)))) rest := by
    refine fun start attributes => .bind (parses_visibility_none rfl) fun _ _ => ?_
    refine .bind (.wordOpt_none rfl) fun _ _ => .bind htypeItem fun t ht => ?_
    exact .no (by simp [ht]) (.pure trivial)
  refine .get fun start _ _ => .bind (parses_outerAttributes (by simp)) fun attributes _ => ?_
  refine .get fun after hafter hleft => .bind (parses_visibility_none rfl) fun _ hbare => ?_
  refine .peek (.no (by simp [startsDefault, isWord]) (.bind (Q := (· = [])) (.pure rfl) fun _ _ => ?_))
  refine .peek (.no rfl (.peek (.no rfl (.peek (.yes rfl ?_)))))
  exact .set hafter hleft (himplType _ _)

-- A block that implements a trait for a type, both by the names of their paths.
def IsImplOf (trait subject : List String) (b : ImplBlock) : Prop :=
  ∃ t p, b.trait = some t ∧ namesOf t.path.segments = trait ∧
    b.selfTy = .path none p ∧ namesOf p.segments = subject

-- An implementation of a trait.
theorem parses_implBlock {trait subject : List String} {subjectTs : List Tree}
    (hstart : startsGenerics ts = false ∧ isOp ['!'] ts = false)
    (htrait : Parses (ty g true) ts (.ident { text := "for" } :: subjectTs)
      fun t => ∃ p, t = .path none p ∧ namesOf p.segments = trait)
    (hsubject : Parses (ty g true) subjectTs (.group .brace body {} {} :: rest)
      fun t => ∃ p, t = .path none p ∧ namesOf p.segments = subject)
    (hitems : Filled (implItem (.above g)) body) (hhash : isOp ['#'] body = false) :
    Parses (implBlock (.above g)) (.ident { text := "impl" } :: ts) rest (IsImplOf trait subject) := by
  have hbody : Passes (do
      let inner ← innerAttributes (.above g)
      let items ← repeating (fun done => do
        if ← peek isEnd then return none else return some ((← implItem (.above g)) :: done)) []
      return (inner, items.reverse)) body [] := by
    refine .bind (parses_innerAttributes hhash) fun _ _ => ?_
    refine .bind ((hitems.loops (fun a ts more hts h => ?_) fun a => ?_).parses [] trivial)
      fun _ _ => .pure trivial
    · exact .peek (.no hts (.bind h fun _ _ => .pure ⟨_, rfl, trivial⟩))
    · exact .peek (.yes rfl (.pure rfl))
  have himplTrait : ∀ negative first, (∃ p, first = .path none p ∧ namesOf p.segments = trait) →
      Parses (implTrait negative first) (.ident { text := "for" } :: subjectTs) subjectTs
        fun t => ∃ t', t = some t' ∧ namesOf t'.path.segments = trait := by
    rintro negative first ⟨p, rfl, hp⟩
    exact .bind (.word _ _) fun _ _ => .pure ⟨_, rfl, hp⟩
  have hwith : ∀ attributes, Parses (implBlockWith (.above g) false attributes)
      (.ident { text := "impl" } :: ts) rest fun b => ∃ b', b = some b' ∧ IsImplOf trait subject b' := by
    refine fun attributes => .bind (Q := (· = [])) (.pure rfl) fun visibility hvisibility => ?_
    refine .bind (.wordOpt_none rfl) fun _ _ => .bind (.wordOpt_none rfl) fun _ _ => ?_
    refine .bind (.word _ _) fun _ _ => .peek (.no hstart.1 ?_)
    refine .bind (Q := fun _ => True) (.pure trivial) fun _ _ => .peek (.peek (.peekAt ?_))
    refine .no (by simp) (.get fun _ _ _ => .peek (.peekAt (.no (by simp [hstart.2]) ?_)))
    refine .bind (Q := (· = [])) (.pure rfl) fun negative hnegative => .get fun _ _ _ => ?_
    refine .bind htrait fun first hfirst => .peek (.yes rfl ?_)
    refine .bind (himplTrait _ _ hfirst) fun t ht => ?_
    obtain ⟨t, rfl, ht⟩ := ht
    refine .no (by simp) (.yes rfl (.bind hsubject fun selfTy hself => ?_))
    obtain ⟨p, rfl, hp⟩ := hself
    refine .bind (parses_whereClause_none rfl) fun _ _ => .bind (.inGroup hbody _) fun _ _ => ?_
    subst hvisibility
    exact .no (by simp) (.pure ⟨_, rfl, t, p, rfl, ht, rfl, hp⟩)
  refine .bind (parses_outerAttributes (by simp)) fun attributes _ => .bind (hwith _) fun b hb => ?_
  obtain ⟨b, rfl, hb⟩ := hb
  exact .pure hb

end Lifecycle.Grammar
