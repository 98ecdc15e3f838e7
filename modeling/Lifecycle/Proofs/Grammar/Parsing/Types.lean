import Lifecycle.Grammar.Whole
import Lifecycle.Proofs.Grammar.Parsing
import Lifecycle.Token.Writing

namespace Lifecycle.Grammar

open Text Lifecycle.Tree Lifecycle.Parser

variable {g : Level} {rest tail : List Tree} {inExpr plus : Bool}

-- A word that may be a path segment.
def IsSegment (name : String) : Prop := name ∉ keywords ∨ name ∈ pathWords

theorem yields_ident : Yields ident fun name => name.text ∉ keywords := by
  intro c name c' h
  simp only [Parser.ident, get_bind_run] at h
  split at h
  · split at h
    · cases h
    · rename_i hkeyword
      obtain ⟨rfl, -⟩ := pure_run_eq_ok_iff.1 h
      simpa using hkeyword
  · cases h

-- The segments of a path are words that may stand there.
theorem yields_segment_isSegment (g : Level) (inExpr : Bool) :
    Yields (segment g inExpr) fun s => IsSegment s.name.text := by
  intro c s c' h
  obtain ⟨hword, h⟩ | ⟨-, h⟩ := peek_ite_run_eq_ok h
  · obtain ⟨name, c₁, hname, h⟩ := bind_run_eq_ok_iff.1 h
    obtain ⟨rfl, -⟩ := pure_run_eq_ok_iff.1 h
    simp only [Parser.anyIdent, get_bind_run] at hname
    split at hname
    · rename_i found rest htrees
      obtain ⟨rfl, -⟩ := pure_run_eq_ok_iff.1 hname
      exact .inr (by simpa [htrees, isWordOf] using hword)
    · cases hname
  · refine (Yields.bind yields_ident fun name hname => ?_ :
      Yields _ fun s => IsSegment s.name.text) c s c' h
    refine .skip fun _ => .skip fun _ => .skip fun _ => .skip fun _ => .ite ?_ (.pure (.inl hname))
    exact .skip fun _ => .pure (.inl hname)

theorem yields_path_isSegment (g : Level) (inExpr : Bool) :
    Yields (path g inExpr) fun p => ∀ s ∈ p.segments, IsSegment s.name.text := by
  have hmore : Yields (moreSegments g inExpr) fun ss => ∀ s ∈ ss, IsSegment s.name.text := by
    refine .bind (.repeating (Q := fun done => ∀ s ∈ done, IsSegment s.name.text) (by simp)
      fun done hdone => ?_) fun done hdone => .pure (by simpa using hdone)
    refine .skip fun _ => .skip fun _ => .ite ?_ .done
    refine .skip fun _ => .bind (yields_segment_isSegment g inExpr) fun s hs => .more ?_
    exact List.forall_mem_cons.2 ⟨hs, hdone⟩
  refine .skip fun leading => .bind (yields_segment_isSegment g inExpr) fun first hfirst => ?_
  exact .bind hmore fun ss hss => .pure (List.forall_mem_cons.2 ⟨hfirst, hss⟩)

theorem isWord_name {name w : String} (h : name ∉ keywords) (hw : w ∈ keywords) (ts : List Tree) :
    isWord w (.ident { text := name } :: ts) = false := by
  have hne : name ≠ w := fun heq => h (heq ▸ hw)
  simpa [isWord] using hne

theorem isWordOf_name {name : String} {ws : List String} (h : name ∉ keywords)
    (hws : ∀ w ∈ ws, w ∈ keywords) (ts : List Tree) :
    isWordOf ws (.ident { text := name } :: ts) = false := by
  have hmem : name ∉ ws := fun hmem => h (hws name hmem)
  simpa [isWordOf] using hmem

-- Whether the arguments of a path segment do not follow here.
structure NoArguments (rest : List Tree) : Prop where
  angle : isOp ['<'] rest = false
  turbofish : isOp [':', ':'] rest = true → isOp ['<'] (rest.drop 2) = false

-- A segment without arguments is read as it was written.
theorem parses_segment_tokens {name : String} (h : IsSegment name) (hrest : NoArguments rest) :
    Parses (segment g inExpr) (.ident { text := name } :: rest) rest
      fun s => bare s.tokens = [.ident { text := name }] := by
  have htokens : ∀ n : Ident, n.text = name →
      bare (Segment.tokens { name := n }) = [.ident { text := name }] := by
    rintro n rfl
    simp [Segment.tokens, Arguments.tokens, bare]
  by_cases hname : name ∈ pathWords
  · exact .peek (.yes (by simp [isWordOf, hname]) (.bind (.anyIdent _ _) fun n hn =>
      .pure (htokens n hn)))
  · refine .peek (.no (by simp [isWordOf, hname]) ?_)
    refine .bind (.ident (h.resolve_right hname) _) fun n hn => ?_
    refine .peek (.peek (.peek (.peekAt (.no ?_ (.pure (htokens n hn))))))
    simpa [hrest.angle] using hrest.turbofish

theorem parses_segment {name : String} (h : IsSegment name) (hrest : NoArguments rest) :
    Parses (segment g inExpr) (.ident { text := name } :: rest) rest (·.name.text = name) := by
  refine (parses_segment_tokens h hrest).mono fun s hs => ?_
  simp only [Segment.tokens, bare, List.cons.injEq, Tree.ident.injEq, Ident.mk.injEq] at hs
  exact hs.1.1

-- The trees of path segments after the first one.
def moreNames (names : List String) : List Tree :=
  names.flatMap fun name => Code.colons ++ Code.word name

-- The names of path segments that were read.
def namesOf (segments : List Segment) : List String :=
  segments.map (·.name.text)

theorem moreNames_append (names more : List String) :
    moreNames (names ++ more) = moreNames names ++ moreNames more :=
  List.flatMap_append

theorem moreNames_cons (name : String) (names : List String) (rest : List Tree) :
    moreNames (name :: names) ++ rest =
      .punct ':' true {} :: .punct ':' false {} :: .ident { text := name } ::
        (moreNames names ++ rest) := by
  simp [moreNames, Code.colons, Code.op2, Tree.operator, Code.word, Tree.word]

theorem noArguments_moreNames (name : String) (names : List String) (rest : List Tree) :
    NoArguments (moreNames (name :: names) ++ rest) := by
  rw [moreNames_cons]
  exact ⟨by simp, by simp⟩

-- Segments without arguments, and a last one that may have some.
theorem parses_moreSegments {names : List String} (hnames : ∀ n ∈ names, IsSegment n) {last : String}
    (hlast : Parses (segment g inExpr) (.ident { text := last } :: tail) rest (·.name.text = last))
    (hend : isOp [':', ':'] rest = false) (hlt : rest.length ≤ tail.length) :
    Parses (moreSegments g inExpr) (moreNames names ++ (moreNames [last] ++ tail)) rest
      fun ss => namesOf ss = names ++ [last] := by
  unfold moreSegments
  refine .bind (Q := fun done => namesOf done.reverse = names ++ [last])
    (Loops.parses (Loops.list (I := fun before done => namesOf done.reverse = before) ?_ ?_ ?_) _ rfl)
    fun done hdone => .pure hdone
  · simp [Code.colons, Code.op2, Tree.operator]
  · intro before name todo done hall hdone
    have hname : IsSegment name := hnames name (by simp [← hall])
    have harguments : NoArguments (moreNames todo ++ (moreNames [last] ++ tail)) := by
      cases todo with
      | nil => exact noArguments_moreNames _ _ _
      | cons n todo => exact noArguments_moreNames _ _ _
    refine .peek (.peekAt (.yes ?_ (.bind (.op2 _ _ _) fun _ _ => ?_)))
    · simp [Code.colons, Code.op2, Tree.operator, Code.word, Tree.word, isGroup]
    · refine .bind (parses_segment hname harguments) fun s hs => .pure ⟨_, rfl, ?_⟩
      simpa [namesOf, hs] using hdone
  · refine .next (R := fun done => namesOf done.reverse = names ++ [last]) (fun done hdone => ?_) ?_
      (.stop (fun done hdone => ?_) fun done hdone => hdone)
    · rw [moreNames_cons]
      refine .peek (.peekAt (.yes (by simp [isGroup]) (.bind (.op2 _ _ _) fun _ _ => ?_)))
      refine .bind hlast fun s hs => .pure ⟨_, rfl, ?_⟩
      simpa [namesOf, hs] using hdone
    · simp only [moreNames_cons, List.length_cons, List.length_append]
      omega
    · exact .peek (.peekAt (.no (by simp [hend]) (.pure rfl)))

-- What may stand in front of the first name of a path.
def IsRoot (root : List Tree) : Prop := root = [] ∨ root = Code.colons

-- The trees of a path up to its first name, and those behind it.
abbrev pathFrom (root : List Tree) (first : String) (ts : List Tree) : List Tree :=
  root ++ .ident { text := first } :: ts

theorem IsRoot.parses {root : List Tree} (h : IsRoot root) {name : String} :
    Passes (opOpt [':', ':']) (pathFrom root name rest) (.ident { text := name } :: rest) := by
  obtain rfl | rfl := h
  · exact (Parses.opOpt_none (by simp)).passes
  · exact (Parses.opOpt (by simp [Code.colons, Code.op2, Tree.operator])).passes

-- A path of one segment, which may have arguments.
theorem parses_path_single {root : List Tree} (hroot : IsRoot root) {last : String}
    (hlast : Parses (segment g inExpr) (.ident { text := last } :: tail) rest (·.name.text = last))
    (hend : isOp [':', ':'] rest = false) :
    Parses (path g inExpr) (pathFrom root last tail) rest fun p => namesOf p.segments = [last] := by
  have hmore : Parses (moreSegments g inExpr) rest rest (· = []) :=
    .bind (.repeating_none (.peek (.peekAt (.no (by simp [hend]) (.pure rfl)))))
      fun done hdone => .pure (by simp [hdone])
  refine .bind hroot.parses fun leading _ => .bind hlast fun s hs => ?_
  refine .bind hmore fun ss hss => .pure ?_
  simp [namesOf, Path.segments, hs, hss]

-- A path of several segments, of which the last may have arguments.
theorem parses_path {root : List Tree} (hroot : IsRoot root) {first last : String}
    {names : List String} (hfirst : IsSegment first) (hnames : ∀ n ∈ names, IsSegment n)
    (hlast : Parses (segment g inExpr) (.ident { text := last } :: tail) rest (·.name.text = last))
    (hend : isOp [':', ':'] rest = false) (hlt : rest.length ≤ tail.length) :
    Parses (path g inExpr) (pathFrom root first (moreNames names ++ (moreNames [last] ++ tail))) rest
      fun p => namesOf p.segments = first :: names ++ [last] := by
  have harguments : NoArguments (moreNames names ++ (moreNames [last] ++ tail)) := by
    cases names with
    | nil => exact noArguments_moreNames _ _ _
    | cons n names => exact noArguments_moreNames _ _ _
  refine .bind hroot.parses fun leading _ => .bind (parses_segment hfirst harguments) fun s hs => ?_
  refine .bind (parses_moreSegments hnames hlast hend hlt) fun ss hss => .pure ?_
  rw [namesOf] at hss
  simp [namesOf, Path.segments, hs, hss]

-- The names of a path that may stand as a type, as a pattern and as an expression.
structure PlainPath (root : List Tree) (first : String) (more : List String) : Prop where
  isRoot : IsRoot root
  segments : ∀ n ∈ first :: more, IsSegment n
  ne_try : root = [] → first ≠ "try"

-- A name is such a path.
theorem PlainPath.ofName {name : String} (h : name ∉ keywords) : PlainPath [] name [] := by
  refine ⟨.inl rfl, fun n hn => ?_, fun _ htry => ?_⟩
  · obtain rfl := List.mem_singleton.1 hn
    exact .inl h
  · have hkeyword : "try" ∈ keywords := by decide
    exact h (htry ▸ hkeyword)

section Plain

variable {root : List Tree} {first : String} {more : List String} (h : PlainPath root first more)

namespace PlainPath

include h

theorem first_segment : IsSegment first :=
  h.segments first List.mem_cons_self

theorem append {name : String} (hname : name ∉ keywords) : PlainPath root first (more ++ [name]) := by
  refine ⟨h.isRoot, fun n hn => ?_, h.ne_try⟩
  rw [← List.cons_append, List.mem_append, List.mem_singleton] at hn
  obtain hn | rfl := hn
  · exact h.segments n hn
  · exact .inl hname

theorem parses_path (hrest : NoArguments rest) (hend : isOp [':', ':'] rest = false) :
    Parses (path g inExpr) (pathFrom root first (moreNames more ++ rest)) rest
      fun p => namesOf p.segments = first :: more := by
  obtain ⟨hfirst, hmore⟩ := List.forall_mem_cons.1 h.segments
  obtain rfl | ⟨names, last, rfl⟩ := List.eq_nil_or_concat' more
  · exact parses_path_single h.isRoot (parses_segment hfirst hrest) hend
  · have hlast : IsSegment last := hmore last (by simp)
    rw [moreNames_append, List.append_assoc]
    exact Grammar.parses_path h.isRoot hfirst (fun n hn => hmore n (by simp [hn]))
      (parses_segment hlast hrest) hend le_rfl

variable (ts : List Tree)

theorem isOp_start {c : Char} {cs : List Char} (hc : c ≠ ':') :
    isOp (c :: cs) (pathFrom root first ts) = false := by
  obtain rfl | rfl := h.isRoot
  · simp
  · simp [Code.colons, Code.op2, Tree.operator, hc]

theorem isGroup_start (d : Delimiter) : isGroup d (pathFrom root first ts) = false := by
  obtain rfl | rfl := h.isRoot <;> rfl

theorem isLifetime_start : isLifetime (pathFrom root first ts) = false := by
  obtain rfl | rfl := h.isRoot <;> rfl

theorem isEnd_start : isEnd (pathFrom root first ts) = false := by
  obtain rfl | rfl := h.isRoot <;> rfl

theorem ne_of_keyword {w : String} (hw : w ∈ keywords ∧ w ∉ pathWords) : first ≠ w :=
  fun heq => h.first_segment.elim (· (heq ▸ hw.1)) (heq ▸ hw.2)

-- No word starts it that is no segment.
theorem isWord_start {w : String} (hw : w ∈ keywords ∧ w ∉ pathWords) :
    isWord w (pathFrom root first ts) = false := by
  obtain rfl | rfl := h.isRoot
  · simpa [isWord] using h.ne_of_keyword hw
  · rfl

theorem isWordOf_start {ws : List String} (hws : ∀ w ∈ ws, w ∈ keywords ∧ w ∉ pathWords) :
    isWordOf ws (pathFrom root first ts) = false := by
  obtain rfl | rfl := h.isRoot
  · have hmem : first ∉ ws := fun hmem => h.ne_of_keyword (hws first hmem) rfl
    simpa [isWordOf] using hmem
  · rfl

theorem isLiteral_start : isLiteral (pathFrom root first ts) = false := by
  obtain rfl | rfl := h.isRoot
  · have htrue : first ≠ "true" := h.ne_of_keyword (by decide)
    have hfalse : first ≠ "false" := h.ne_of_keyword (by decide)
    simp [isLiteral, literal?, htrue, hfalse]
  · rfl

theorem isName_start (hroot : root = []) :
    first ∉ keywords ∨ first ∈ ["super", "self", "Self", "crate"] := by
  obtain hfirst | hfirst := h.first_segment
  · exact .inl hfirst
  · simpa [pathWords, h.ne_try hroot] using Or.inr hfirst

theorem startsPathTy_start : startsPathTy (pathFrom root first ts) = true := by
  obtain rfl | rfl := h.isRoot
  · obtain hname | hname := h.isName_start rfl
    · simp [startsPathTy, isIdent, hname]
    · simp [startsPathTy, isWordOf, hname]
  · simp [startsPathTy, Code.colons, Code.op2, Tree.operator]

end PlainPath

end Plain

instance : Blind startsPathTy := ⟨fun ts => by simp [startsPathTy]⟩

-- Whether a type that is a path ends in front of these trees.
structure EndsType (rest : List Tree) : Prop where
  angle : isOp ['<'] rest = false
  colons : isOp [':', ':'] rest = false
  bang : isOp ['!'] rest = false
  plus : isOp ['+'] rest = false
  paren : isGroup .paren rest = false

namespace EndsType

theorem noArguments (h : EndsType rest) : NoArguments rest :=
  ⟨h.angle, by simp [h.colons]⟩

theorem nil : EndsType [] :=
  ⟨rfl, rfl, rfl, rfl, rfl⟩

theorem ident (name : Ident) (rest : List Tree) : EndsType (.ident name :: rest) :=
  ⟨rfl, rfl, rfl, rfl, rfl⟩

theorem braces (body rest : List Tree) : EndsType (.group .brace body {} {} :: rest) :=
  ⟨rfl, rfl, rfl, rfl, rfl⟩

theorem punct {c : Char} (h : c ∉ ['<', '!', '+']) (rest : List Tree) :
    EndsType (.punct c false {} :: rest) := by
  simp only [List.mem_cons, List.not_mem_nil, or_false, not_or] at h
  obtain ⟨hangle, hbang, hplus⟩ := h
  exact ⟨by simp [Ne.symm hangle], by simp, by simp [Ne.symm hbang], by simp [Ne.symm hplus], rfl⟩

end EndsType

section Plain

variable {root : List Tree} {first : String} {more : List String}

-- A type that is a path, if the path is read.
theorem PlainPath.parses_ty_of_path (h : PlainPath root first more) {ts : List Tree}
    {names : List String}
    (hpath : Parses (path g false) (pathFrom root first ts) rest fun p => namesOf p.segments = names)
    (hrest : EndsType rest) :
    Parses (ty g plus) (pathFrom root first ts) rest
      fun t => ∃ p, t = .path none p ∧ namesOf p.segments = names := by
  have hqualified : Parses (qualifiedPath g false) (pathFrom root first ts) rest
      fun r => r.1 = none ∧ namesOf r.2.segments = names :=
    .peek (.no (h.isOp_start ts (by decide)) (.bind hpath fun p hp => .pure ⟨rfl, hp⟩))
  have hpathTy : Parses (tyFromPath g plus []) (pathFrom root first ts) rest
      fun t => ∃ p, t = .path none p ∧ namesOf p.segments = names := by
    refine .bind hqualified fun (qself, p) ⟨hqself, hp⟩ => ?_
    obtain rfl : qself = none := hqself
    refine .no rfl (.peek (.peek (.no (by simp [hrest.bang]) ?_)))
    exact .peek (.no (by simp [hrest.plus]) (.pure ⟨p, rfl, hp⟩))
  refine .get fun c _ _ => .peek (.no (h.isWord_start ts (by decide)) ?_)
  refine .peek (.no (h.isGroup_start ts _) (.peek (.no (h.isWordOf_start ts (by decide)) ?_)))
  exact .peek (.yes (h.startsPathTy_start ts) hpathTy)

theorem PlainPath.parses_ty (h : PlainPath root first more) (hrest : EndsType rest) :
    Parses (ty g plus) (pathFrom root first (moreNames more ++ rest)) rest
      fun t => ∃ p, t = .path none p ∧ namesOf p.segments = first :: more :=
  h.parses_ty_of_path (h.parses_path hrest.noArguments hrest.colons) hrest

-- The trees of an argument in angle brackets.
def angles (inner : List Tree) : List Tree :=
  .punct '<' false {} :: (inner ++ [.punct '>' false {}])

theorem parses_angleArguments {inner : List Tree} (hne : inner ≠ [])
    (hstop : isOp ['>'] (inner ++ .punct '>' false {} :: rest) = false)
    (h : Passes (argument g) (inner ++ .punct '>' false {} :: rest) (.punct '>' false {} :: rest)) :
    Passes (angleArguments g) (angles inner ++ rest) rest := by
  have hlt : (Tree.punct '>' false {} :: rest).length <
      (inner ++ .punct '>' false {} :: rest).length := by
    have hpos : 0 < inner.length := List.length_pos_iff.2 hne
    simp only [List.length_append]
    omega
  rw [angles, List.cons_append, List.append_assoc, List.singleton_append]
  refine .bind (.opOpt_none (by simp)) fun _ _ => .bind (.op1 _ _) fun _ _ => ?_
  refine .bind (Listing.parses (.last hstop h (by simp) hlt)) fun _ _ => ?_
  exact .bind (.op1 _ _) fun _ _ => .pure trivial

theorem parses_argument_lifetime (name : String) :
    Passes (argument g) (.lifetime name {} :: .punct '>' false {} :: rest)
      (.punct '>' false {} :: rest) :=
  .peek (.peekAt (.yes (by simp [isLifetime]) (.bind (.lifetime _ _) fun _ _ => .pure trivial)))

theorem parses_argument_reference {inner : List Tree}
    (hty : Parses (g.ty true) (.punct '&' false {} :: inner) rest
      fun t => ∃ mark lifetime mutable elem, t = .reference mark lifetime mutable elem) :
    Passes (argument g) (.punct '&' false {} :: inner) rest := by
  refine .peek (.peekAt (.no (by simp [isLifetime]) (.peek (.peek (.no ?_ ?_)))))
  · simp [isLiteral, literal?, isGroup]
  · refine .bind hty fun t ht => ?_
    obtain ⟨mark, lifetime, mutable, elem, rfl⟩ := ht
    exact .pure trivial

theorem parses_segment_angles {name : String} (h : name ∉ keywords) {inner : List Tree}
    (hinner : Passes (angleArguments g) (angles inner ++ rest) rest) :
    Parses (segment g false) (.ident { text := name } :: (angles inner ++ rest)) rest
      (·.name.text = name) := by
  have hkeywords : ∀ w ∈ pathWords, w ∈ keywords := by decide
  have hwords : name ∉ pathWords := fun hw => h (hkeywords name hw)
  refine .peek (.no (by simp [isWordOf, hwords]) (.bind (.ident h _) fun n hn => ?_))
  refine .peek (.peek (.peek (.peekAt (.yes ?_ (.bind hinner fun _ _ => .pure hn)))))
  simp [angles]

-- A type with a lifetime behind its name.
theorem parses_ty_lifetime {g : Level} {plus : Bool} {name : String} (h : name ∉ keywords)
    (lifetime : String) (hrest : EndsType rest) :
    Parses (ty g plus) (.ident { text := name } :: (angles [.lifetime lifetime {}] ++ rest)) rest
      fun t => ∃ p, t = .path none p ∧ namesOf p.segments = [name] := by
  have harguments : Passes (angleArguments g) (angles [.lifetime lifetime {}] ++ rest) rest :=
    parses_angleArguments (by simp) (by simp) (parses_argument_lifetime lifetime)
  exact (PlainPath.ofName h).parses_ty_of_path
    (parses_path_single (.inl rfl) (parses_segment_angles h harguments) hrest.colons) hrest

theorem parses_ty_reference {h : Level} {ts mid elem : List Tree}
    (hlifetime : Passes lifetimeOpt ts mid) (hmut : Passes (wordOpt "mut") mid elem)
    (helem : Passes (ty h false) elem rest) :
    Parses (ty (Level.above h) plus) (.punct '&' false {} :: ts) rest
      fun t => ∃ mark lifetime mutable elem, t = .reference mark lifetime mutable elem := by
  refine .get fun c _ _ => .peek (.no rfl (.peek (.no rfl (.peek (.no rfl (.peek (.no ?_ ?_)))))))
  · simp [startsPathTy, isIdent, isWordOf]
  · refine .peek (.no rfl (.peek (.no rfl (.peek (.no (by simp) (.peek (.yes (by simp) ?_)))))))
    refine .bind (.op1 _ _) fun _ _ => .bind hlifetime fun _ _ => .bind hmut fun _ _ => ?_
    exact .bind helem fun _ _ => .pure ⟨_, _, _, _, rfl⟩

theorem parses_bound_lifetime (captures constant : Bool) (name : String) :
    Passes (bound g captures constant) (.lifetime name {} :: rest) rest :=
  .peek (.yes rfl (.bind (.lifetime _ _) fun _ _ => .pure trivial))

namespace PlainPath

variable (h : PlainPath root first more) (hrest : EndsType rest)

include h

theorem parses_boundLifetimesOpt (ts : List Tree) :
    Parses (boundLifetimesOpt g) (pathFrom root first ts) (pathFrom root first ts) (· = []) :=
  .peek (.no (h.isWord_start ts (by decide)) (.pure rfl))

include hrest

theorem parses_traitBound (constant : Bool) :
    Parses (traitBound g constant) (pathFrom root first (moreNames more ++ rest)) rest
      (·.isSome = true) := by
  unfold traitBound
  refine .bind (h.parses_boundLifetimesOpt _) fun lifetimes hlifetimes => ?_
  subst hlifetimes
  refine .peek (.no (h.isGroup_start _ _) (.peek (.no (h.isWord_start _ (by decide)) ?_)))
  refine .get fun c _ _ => .bind (.opOpt_none (h.isOp_start _ (by decide))) fun modifier hmodifier => ?_
  subst hmodifier
  refine .no rfl (.bind (Q := (· = [])) (.pure rfl) fun lifetimes hlifetimes => ?_)
  subst hlifetimes
  refine .bind (h.parses_path hrest.noArguments hrest.colons) fun p _ => ?_
  refine .peek (.peek (.peekAt (.no (by simp [hrest.paren, hrest.colons]) ?_)))
  exact .bind (Q := fun _ => True) (.pure trivial) fun p _ => .no rfl (.pure rfl)

theorem parses_bound (captures constant : Bool) :
    Parses (bound g captures constant) (pathFrom root first (moreNames more ++ rest)) rest
      (·.isTrait = true) := by
  refine .peek (.no (h.isLifetime_start _) (.peek (.no (h.isWord_start _ (by decide)) ?_)))
  refine .get fun c _ _ => .peek (.no (h.isGroup_start _ _) ?_)
  refine .bind (h.parses_traitBound hrest constant) fun b hb => ?_
  obtain ⟨b, rfl⟩ := Option.isSome_iff_exists.1 hb
  exact .pure rfl

theorem parses_bounds :
    Parses (bounds g plus false false) (pathFrom root first (moreNames more ++ rest)) rest
      fun bs => bs.any (·.1.isTrait) = true := by
  refine .bind (.repeating_once (Q := fun r => r.2 = false ∧ r.1.any (·.1.isTrait) = true) ?_
    fun r hr => ?_) fun r hr => .pure ?_
  · refine .no rfl (.bind (h.parses_bound hrest false false) fun b hb => ?_)
    exact .peek (.no (by simp [hrest.plus]) (.pure ⟨_, rfl, rfl, by simp [hb]⟩))
  · exact .yes (by simpa using hr.1) (.pure rfl)
  · simpa using hr.2

-- An object type of one trait.
theorem parses_ty_dyn :
    Passes (ty g plus) (.ident { text := "dyn" } :: pathFrom root first (moreNames more ++ rest))
      rest := by
  refine .get fun c _ _ => .peek (.no rfl (.peek (.no rfl (.peek (.no rfl (.peek (.no ?_ ?_)))))))
  · simp [startsPathTy, isIdent, isWordOf, keywords]
  · refine .peek (.yes rfl (.get fun c _ _ => .bind (.word _ _) fun _ _ => ?_))
    refine .bind (.opOpt_none (h.isOp_start _ (by decide))) fun star hstar => ?_
    have hobject : Passes (objectBounds g plus c.pos) (pathFrom root first (moreNames more ++ rest))
        rest := .bind (h.parses_bounds hrest) fun bs hbs => .yes hbs (.pure trivial)
    exact .bind hobject fun bs _ => .yes (by simp [hstar]) (.pure trivial)

end PlainPath

end Plain

end Lifecycle.Grammar
