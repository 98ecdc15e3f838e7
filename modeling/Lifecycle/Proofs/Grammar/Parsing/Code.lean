import Lifecycle.Proofs.Grammar.Parsing.Items
import Lifecycle.Proofs.Names
import Lifecycle.Adapter.Code

namespace Lifecycle

open Text Lifecycle.Tree Lifecycle.Parser Lifecycle.Grammar

namespace CallKind

theorem parses_arguments (kind : CallKind) (n : Nat) :
    Passes (exprList (.ofDepth (n + 2))) kind.arguments [] := by
  have howner : PlainPath [] "owner" [] := .ofName (by decide)
  have hevent : PlainPath [] "event" [] := .ofName (by decide)
  refine parses_exprList ?_
  cases kind with
  | noArgs => exact .stop rfl
  | owner =>
    exact .last rfl (parses_exprTokens (howner.parses_unary .nil) .nil) rfl (by decide)
  | ownerEvent =>
    have hcomma : EndsExpr true (.punct ',' false {} :: Code.word "event") := .sign (.inl rfl) _
    refine .next rfl (parses_exprTokens (howner.parses_unary hcomma) hcomma) rfl (.op1 _ _) (by decide) ?_
    exact .last rfl (parses_exprTokens (hevent.parses_unary .nil) .nil) rfl (by decide)

end CallKind

namespace Call

-- The code of a call without its semicolon.
def invocation (c : Call) : List Tree :=
  c.callee.tokens ++ Code.word c.method ++ Code.parens c.kind.arguments

theorem Named.isCall_receiver {c : Call} (h : c.Named) (hreceiver : c.callee = .receiver) :
    IsCall c.invocation := by
  have hself : PlainPath [] "self" [] := by
    refine ⟨.inl rfl, fun n hn => .inr ?_, fun _ => by decide⟩
    obtain rfl := List.mem_singleton.1 hn
    decide
  have heq : c.invocation = pathFrom [] "self" (moreNames [] ++ [.punct '.' false {},
      .ident { text := "receiver" }, .punct '.' false {}, .ident { text := c.method },
        .group .paren c.kind.arguments {} {}]) := by
    rw [invocation, hreceiver]
    rfl
  rw [heq]
  have harguments := fun n => c.kind.parses_arguments n
  refine hself.isCall (by decide) (by simp) (fun n rest hrest => ?_) fun rest => ?_
  · exact parses_unary (hself.startsAtom _) (hself.parses_atom (.point _))
      (.field (by decide) (.method h.method.2 (harguments n) (.stop hrest)))
  · simp [startsItem, isWordOf, isWord, startsStaticItem, startsConstItem]

theorem joined_eq (first : String) (more : List String) :
    Code.joined (first :: more) = Code.word first ++ moreNames more := by
  induction more generalizing first with
  | nil => simp [Code.joined, moreNames]
  | cons name more ih => simp [Code.joined, ih, moreNames]

-- The path of a class, as the code of a call names it.
theorem Named.exists_path {segments : List String} (h : (Callee.path segments).Named) :
    ∃ first more, segments = first :: more ∧ PlainPath [] first more ∧
      (∀ n ∈ first :: more, n ≠ "try") ∧ (first ∉ keywords ∨ first = "crate") := by
  obtain ⟨name, modules, hname, hmodules, hsegments⟩ := h
  have htry : ∀ n, IsIdentifier n → n ≠ "try" := fun n hn heq => hn.2 (heq ▸ by decide)
  obtain ⟨rfl, -⟩ | rfl := hsegments
  · refine ⟨name, [], rfl, .ofName hname.2, fun n hn => ?_, .inl hname.2⟩
    exact List.mem_singleton.1 hn ▸ htry name hname
  · have hnames : ∀ n ∈ modules ++ [name], IsIdentifier n := by
      simpa [or_imp, forall_and] using ⟨hmodules, hname⟩
    refine ⟨"crate", modules ++ [name], rfl, ⟨.inl rfl, ?_, fun _ => by decide⟩, ?_, .inr rfl⟩
    · exact List.forall_mem_cons.2 ⟨.inr (by decide), fun n hn => .inl (hnames n hn).2⟩
    · exact List.forall_mem_cons.2 ⟨by decide, fun n hn => htry n (hnames n hn)⟩

theorem Named.isCall_path {c : Call} (h : c.Named) {segments : List String}
    (hcallee : c.callee = .path segments) : IsCall c.invocation := by
  obtain ⟨first, more, rfl, hpath, htry, hfirst⟩ := Named.exists_path (hcallee ▸ h.callee)
  have heq : c.invocation = pathFrom [] first (moreNames (more ++ [c.method]) ++
      [.group .paren c.kind.arguments {} {}]) := by
    simp [invocation, hcallee, Callee.tokens, joined_eq, moreNames, Code.parens, Tree.grouped,
      Code.word, Tree.word]
  rw [heq]
  have hall : PlainPath [] first (more ++ [c.method]) := hpath.append h.method.2
  have htryAll : ∀ n ∈ first :: (more ++ [c.method]), n ≠ "try" := by
    have hmethod : c.method ≠ "try" := fun heq => h.method.2 (heq ▸ by decide)
    rw [← List.cons_append]
    simpa [or_imp, forall_and, hmethod] using htry
  refine hall.isCall htryAll (by simp) (fun n rest hrest => ?_) fun rest => ?_
  · exact parses_unary (hall.startsAtom _) (hall.parses_atom (.parens _ _))
      (.call (c.kind.parses_arguments n) (.stop hrest))
  · obtain ⟨n, names, hnames⟩ := List.exists_cons_of_ne_nil (List.concat_ne_nil c.method more)
    rw [hnames, moreNames_cons]
    exact startsItem_name (hfirst.imp_right (⟨·, by simp⟩)) rfl

theorem Named.isCall {c : Call} (h : c.Named) : IsCall c.invocation := by
  cases hcallee : c.callee with
  | receiver => exact h.isCall_receiver hcallee
  | path segments => exact h.isCall_path hcallee

variable {n : Nat} {rest : List Tree}

theorem Named.statementList {c : Call} (h : c.Named) (hrest : StatementList (.ofDepth (n + 4)) rest) :
    StatementList (.ofDepth (n + 4)) (c.statement ++ rest) := by
  cases hresult : c.hasResult with
  | false =>
    have heq : c.statement ++ rest = c.invocation ++ .punct ';' false {} :: rest := by
      simp [Call.statement, hresult, invocation, Code.op1, Tree.operator]
    exact heq ▸ .call h.isCall hrest
  | true =>
    have heq : c.statement ++ rest = .ident { text := "let" } :: .ident { text := "_" } ::
        .punct '=' false {} :: (c.invocation ++ .punct ';' false {} :: rest) := by
      simp [Call.statement, hresult, invocation, Code.op1, Tree.operator, Code.word, Tree.word]
    exact heq ▸ .discard (h.isCall.unary n _ (.sign (.inr rfl) _)) hrest

section Runtime

variable {runtime : Path} {root : List Tree} {first : String} {more : List String}
  (hpath : PlainPath root first more) (hruntime : runtime.tokens = pathFrom root first (moreNames more))

include hpath hruntime

-- The arguments of the question to a log: the name of the callback, and the kind of the call.
theorem parses_approval (key : String) (kind : CallKind) (n : Nat) :
    Passes (exprList (.ofDepth (n + 2))) (Code.quoted key ++ Code.op1 ',' ++ runtime.tokens ++
      Code.colons ++ Code.word "CallKind" ++ Code.colons ++ Code.word kind.name) [] := by
  obtain ⟨names, hnames⟩ : ∃ names, names = more ++ ["CallKind"] ++ [kind.name] := ⟨_, rfl⟩
  have hname : PlainPath root first names := by
    have hkind : kind.name ∉ keywords := by cases kind <;> decide
    exact hnames ▸ (hpath.append (by decide)).append hkind
  have heq : Code.quoted key ++ Code.op1 ',' ++ runtime.tokens ++ Code.colons ++
      Code.word "CallKind" ++ Code.colons ++ Code.word kind.name =
        .literal (String.ofList (Quoted.quote key.toList)) {} :: .punct ',' false {} ::
          pathFrom root first (moreNames names ++ []) := by
    simp [hruntime, hnames, moreNames, Code.quoted, Code.op1, Tree.operator]
  have hsign : EndsExpr true (.punct ',' false {} :: pathFrom root first (moreNames names ++ [])) :=
    .sign (.inl rfl) _
  rw [heq]
  refine parses_exprList (.next rfl (parses_exprTokens (parses_unary_literal _ hsign) hsign) rfl
    (.op1 _ _) (by simp) ?_)
  exact .last (hname.isEnd_start _) (parses_exprTokens (hname.parses_unary .nil) .nil) rfl (by simp)

-- The question to a log, as the condition of a call.
theorem parses_question (key : String) (kind : CallKind) (n : Nat) (body rest : List Tree) :
    Passes (exprTokens (.ofDepth (n + 8)) false)
      (question runtime key kind ++ .group .brace body {} {} :: rest)
      (.group .brace body {} {} :: rest) := by
  obtain ⟨approval, happroval⟩ : ∃ ts, ts = Code.quoted key ++ Code.op1 ',' ++ runtime.tokens ++
    Code.colons ++ Code.word "CallKind" ++ Code.colons ++ Code.word kind.name := ⟨_, rfl⟩
  have heq : question runtime key kind ++ .group .brace body {} {} :: rest =
      .ident { text := "logger" } :: .punct '.' false {} :: .ident { text := "as_deref_mut" } ::
        .group .paren [] {} {} :: .punct '.' false {} :: .ident { text := "is_none_or" } ::
          .group .paren (.punct '|' false {} :: .ident { text := "logger" } :: .punct '|' false {} ::
            [.ident { text := "logger" }, .punct '.' false {}, .ident { text := "approve_call" },
              .group .paren approval {} {}]) {} {} :: .group .brace body {} {} :: rest := by
    rw [happroval]
    rfl
  have hlogger : PlainPath [] "logger" [] := .ofName (by decide)
  have hrest : EndsExpr false (.group .brace body {} {} :: rest) := .braces rfl _ _
  have hbody : Passes (exprTokens (.ofDepth (n + 4)) true) [.ident { text := "logger" },
      .punct '.' false {}, .ident { text := "approve_call" }, .group .paren approval {} {}] [] :=
    parses_exprTokens (parses_unary (hlogger.startsAtom _) (hlogger.parses_atom (.point _))
      (.method (by decide) (happroval ▸ parses_approval hpath hruntime key kind n) .nil)) .nil
  have hclosure := parses_atom_closure (show "logger" ∉ keywords by decide) hbody (by simp)
  have harguments := parses_exprList (.last (by simp [isEnd])
    (parses_exprTokens (parses_unary ⟨by simp, by simp, by simp⟩ hclosure .nil) .nil) rfl (by simp))
  rw [heq]
  exact parses_exprTokens (parses_unary (hlogger.startsAtom _) (hlogger.parses_atom (.point _))
    (.method (by decide) (parses_exprList (.stop rfl)) (.method (by decide) harguments (.stop hrest))))
      hrest

-- A call in front of other statements, whether or not a log is asked for it.
theorem Named.statementList_tokens {c : Call} (h : c.Named)
    (hrest : StatementList (.ofDepth (n + 9)) rest) :
    StatementList (.ofDepth (n + 9)) (c.tokens runtime ++ rest) := by
  cases hkey : c.key with
  | none =>
    rw [Call.tokens, hkey]
    exact h.statementList hrest
  | some key =>
    have heq : c.tokens runtime ++ rest = .ident { text := "if" } ::
        (question runtime key c.kind ++ .group .brace (c.statement ++ []) {} {} :: rest) := by
      simp [Call.tokens, hkey, Code.word, Tree.word, Code.braces, Tree.grouped]
    rw [heq]
    exact .conditional (parses_question hpath hruntime key c.kind n _ _) (h.statementList .nil) hrest

theorem statementList_listTokens {calls : List Call} (h : ∀ c ∈ calls, c.Named) :
    StatementList (.ofDepth (n + 9)) (listTokens runtime calls) := by
  induction calls with
  | nil => exact .nil
  | cons c calls ih =>
    obtain ⟨hc, hcalls⟩ := List.forall_mem_cons.1 h
    exact hc.statementList_tokens hpath hruntime (ih hcalls)

end Runtime

end Call

namespace Adapter

variable {a : Adapter} {root : List Tree} {first : String} {more : List String} {n : Nat}
  {rest : List Tree} (hpath : PlainPath root first more)
  (hruntime : a.runtime.tokens = pathFrom root first (moreNames more))

include hruntime

-- A name in the runtime.
theorem runtimeName_eq (name : String) (rest : List Tree) :
    a.runtimeName name ++ rest = pathFrom root first (moreNames (more ++ [name]) ++ rest) := by
  simp [runtimeName, hruntime, moreNames]

include hpath

theorem parses_armTokens {event : Event} {calls : List Call} (h : ∀ c ∈ calls, c.Named)
    (hrest : EndsStatement rest) (hcomma : isOp [','] rest = false) :
    Passes (arm (.ofDepth (n + 11))) (a.armTokens event calls ++ rest) rest := by
  have hevent : event.name ∉ keywords := by cases event <;> decide
  have heq : a.armTokens event calls ++ rest = pathFrom root first
      (moreNames (more ++ ["LifecycleEvent"] ++ [event.name]) ++ .punct '=' true {} ::
        .punct '>' false {} :: .group .brace (Call.listTokens a.runtime calls) {} {} :: rest) := by
    simp [armTokens, runtimeName, hruntime, moreNames, Code.op2, Tree.operator, Code.braces,
      Tree.grouped]
  have hname : PlainPath root first (more ++ ["LifecycleEvent"] ++ [event.name]) :=
    (hpath.append (by decide)).append hevent
  have hbody := Call.statementList_listTokens (n := n) hpath hruntime h
  rw [heq]
  exact parses_arm (hname.parses_patterns (by simp)) (hname.isOp_start _ (by decide)) hbody.parses hbody.hash
    hrest hcomma

-- What stands in front of an arm that is not the first one.
theorem starts_arms (arms : List (Event × List Call)) {ts : List Tree}
    (hts : ts = arms.flatMap (fun (event, calls) => a.armTokens event calls) ++
      (Code.word "_" ++ Code.op2 '=' '>' ++ Code.braces [])) :
    EndsStatement ts ∧ isOp [','] ts = false ∧ isOp ['#'] ts = false := by
  subst hts
  cases arms with
  | nil => exact ⟨.word (by decide) _, rfl, rfl⟩
  | cons arm arms =>
    simp only [List.flatMap_cons, armTokens, List.append_assoc, runtimeName_eq hruntime]
    exact ⟨hpath.endsStatement _, hpath.isOp_start _ (by decide), hpath.isOp_start _ (by decide)⟩

theorem filled_arms {arms : List (Event × List Call)} (h : ∀ arm ∈ arms, ∀ c ∈ arm.2, c.Named) :
    Filled (arm (.ofDepth (n + 11))) (arms.flatMap (fun (event, calls) => a.armTokens event calls) ++
      (Code.word "_" ++ Code.op2 '=' '>' ++ Code.braces [])) := by
  induction arms with
  | nil =>
    have hlast : Passes (Grammar.arm (.ofDepth (n + 11))) [.ident { text := "_" }, .punct '=' true {},
        .punct '>' false {}, .group .brace [] {} {}] [] :=
      parses_arm parses_patterns_wildcard (by simp) StatementList.nil.parses rfl .nil rfl
    refine .cons hlast ?_ .nil
    rw [List.flatMap_nil, List.nil_append]
    decide
  | cons arm arms ih =>
    obtain ⟨harm, harms⟩ := List.forall_mem_cons.1 h
    obtain ⟨hends, hcomma, -⟩ := starts_arms hpath hruntime arms rfl
    rw [List.flatMap_cons, List.append_assoc]
    refine .cons (parses_armTokens hpath hruntime harm hends hcomma) ?_ (ih harms)
    simp only [armTokens, List.append_assoc, runtimeName_eq hruntime, List.length_append,
      List.length_cons]
    omega

theorem Named.statementList (h : a.Named) : StatementList (.ofDepth (n + 12)) a.bodyTokens := by
  have hdiscard : ∀ (used : Bool) {name : String} {ts : List Tree}, name ∉ keywords →
      StatementList (.ofDepth (n + 12)) ts →
        StatementList (.ofDepth (n + 12)) ((if used then [] else Code.discard name) ++ ts) := by
    intro used name ts hname hts
    cases used with
    | true => exact hts
    | false =>
      have hunary : Parses (unary (.ofDepth (n + 10)) true)
          ([.ident { text := name }] ++ .punct ';' false {} :: ts) (.punct ';' false {} :: ts)
          IsSettled := (PlainPath.ofName hname).parses_unary (.sign (.inr rfl) _)
      exact .discard hunary hts
  have hcalls : StatementList (.ofDepth (n + 12)) (Call.listTokens a.runtime a.always) :=
    Call.statementList_listTokens (n := n + 3) hpath hruntime h.always
  have hmatch : StatementList (.ofDepth (n + 12))
      (a.matchTokens ++ Call.listTokens a.runtime a.always) := by
    unfold Adapter.matchTokens
    split
    · exact hcalls
    · simp only [List.append_assoc]
      exact .matching (by decide) (filled_arms hpath hruntime h.arms)
        (starts_arms hpath hruntime a.arms rfl).2.2 hcalls
  simp only [Adapter.bodyTokens, List.append_assoc]
  exact hdiscard _ (by decide) (hdiscard _ (by decide) (hdiscard _ (by decide) hmatch))

-- The parameters of the function that makes the calls.
theorem parses_parameters : Passes (params (.ofDepth (n + 4))) a.parameters [] := by
  have hname : ∀ {name : String}, name ∉ keywords → PlainPath root first (more ++ [name]) :=
    fun hname => hpath.append hname
  have hcomma : ∀ rest, EndsType (.punct ',' false {} :: rest) := fun rest => .punct (by decide) rest
  have howner : ∀ rest, Passes (ty (.ofDepth (n + 3)) true)
      (.punct '&' false {} :: .ident { text := "dyn" } ::
        pathFrom root first (moreNames (more ++ ["LifecycleOwner"]) ++ .punct ',' false {} :: rest))
      (.punct ',' false {} :: rest) := fun rest =>
    (parses_ty_reference (Parses.lifetimeOpt_none rfl).passes (Parses.wordOpt_none rfl).passes
      ((hname (by decide)).parses_ty_dyn (hcomma rest))).passes
  have hevent : ∀ rest, Passes (ty (.ofDepth (n + 3)) true)
      (pathFrom root first (moreNames (more ++ ["LifecycleEvent"]) ++ .punct ',' false {} :: rest))
      (.punct ',' false {} :: rest) := fun rest =>
    ((hname (by decide)).parses_ty (hcomma rest)).passes
  have hlogger : Passes (ty (.ofDepth (n + 3)) true) (pathFrom Code.colons "core"
      (moreNames ["option"] ++ (moreNames ["Option"] ++ (angles (.punct '&' false {} ::
        .ident { text := "mut" } ::
          pathFrom root first (moreNames (more ++ ["MethodCallsLogger"]))) ++ [.punct ',' false {}]))))
      [.punct ',' false {}] := by
    have helem : Passes (ty (.ofDepth (n + 1)) false) (pathFrom root first
        (moreNames (more ++ ["MethodCallsLogger"]) ++ [.punct '>' false {}, .punct ',' false {}]))
        [.punct '>' false {}, .punct ',' false {}] :=
      ((hname (by decide)).parses_ty (.punct (by decide) _)).passes
    have hargument : Passes (argument (.ofDepth (n + 3))) (.punct '&' false {} ::
        .ident { text := "mut" } :: pathFrom root first (moreNames (more ++ ["MethodCallsLogger"]) ++
          [.punct '>' false {}, .punct ',' false {}])) [.punct '>' false {}, .punct ',' false {}] :=
      parses_argument_reference (parses_ty_reference (Parses.lifetimeOpt_none rfl).passes
        (Parses.wordOpt _ _).passes helem)
    have harguments : Passes (angleArguments (.ofDepth (n + 3))) (angles (.punct '&' false {} ::
        .ident { text := "mut" } :: pathFrom root first (moreNames (more ++ ["MethodCallsLogger"]))) ++
          [.punct ',' false {}]) [.punct ',' false {}] :=
      parses_angleArguments (by simp) (by simp) (by simpa using hargument)
    have hcore : PlainPath Code.colons "core" [] :=
      ⟨.inr rfl, fun n hn => .inl (List.mem_singleton.1 hn ▸ by decide), by simp [Code.colons, Code.op2, Tree.operator]⟩
    have hsegment : Parses (segment (.ofDepth (n + 3)) false) (.ident { text := "Option" } ::
        (angles (.punct '&' false {} :: .ident { text := "mut" } ::
          pathFrom root first (moreNames (more ++ ["MethodCallsLogger"]))) ++ [.punct ',' false {}]))
        [.punct ',' false {}] (·.name.text = "Option") :=
      parses_segment_angles (by decide) harguments
    refine (hcore.parses_ty_of_path (parses_path (.inr rfl) (.inl (by decide)) ?_ hsegment (by simp) ?_)
      (hcomma [])).passes
    · exact fun n hn => .inl (List.mem_singleton.1 hn ▸ by decide)
    · simp
  obtain ⟨mark, hmark⟩ : ∃ mark, mark = if a.asksLog then Code.word "mut" else [] := ⟨_, rfl⟩
  have hmarks : mark = [] ∨ mark = [.ident { text := "mut" }] := by
    cases hlog : a.asksLog with
    | false => simp [hmark, hlog]
    | true => simp [hmark, hlog, Code.word, Tree.word]
  have heq : a.parameters = .punct '&' false {} :: .ident { text := "mut" } ::
      .ident { text := "self" } :: .punct ',' false {} ::
      (.ident { text := "owner" } :: .punct ':' false {} :: .punct '&' false {} ::
        .ident { text := "dyn" } ::
          pathFrom root first (moreNames (more ++ ["LifecycleOwner"]) ++ .punct ',' false {} ::
      (.ident { text := "event" } :: .punct ':' false {} ::
          pathFrom root first (moreNames (more ++ ["LifecycleEvent"]) ++ .punct ',' false {} ::
      (mark ++ .ident { text := "logger" } :: .punct ':' false {} :: pathFrom Code.colons "core"
        (moreNames ["option"] ++ (moreNames ["Option"] ++ (angles (.punct '&' false {} ::
          .ident { text := "mut" } ::
            pathFrom root first (moreNames (more ++ ["MethodCallsLogger"]))) ++
              [.punct ',' false {}])))))))) := by
    unfold parameters
    rw [← hmark]
    simp only [List.append_assoc, runtimeName_eq hruntime]
    simp [moreNames, Code.joined, Code.op1, Code.op2, Code.colons, Code.word, Tree.operator, Tree.word,
      angles]
  rw [heq]
  have hparams : TypedParams (.ofDepth (n + 4)) (mark ++ .ident { text := "logger" } ::
      .punct ':' false {} :: pathFrom Code.colons "core" (moreNames ["option"] ++ (moreNames ["Option"] ++
        (angles (.punct '&' false {} :: .ident { text := "mut" } ::
          pathFrom root first (moreNames (more ++ ["MethodCallsLogger"]))) ++
            [.punct ',' false {}])))) :=
    .typed (by decide) hmarks hlogger rfl (by simp) .nil
  have hparams := TypedParams.typed (show "event" ∉ keywords by decide) (.inl rfl) (hevent _)
    (hpath.isOp_start _ (by decide)) (by simp; omega) hparams
  have hparams := TypedParams.typed (show "owner" ∉ keywords by decide) (.inl rfl) (howner _)
    (by simp) (by simp; omega) hparams
  exact parses_params hparams

theorem Named.parses_dispatchTokens (h : a.Named) (rest : List Tree) :
    Parses (implBlock (.ofDepth (n + 13))) (a.dispatchTokens ++ rest) rest
      (IsImplOf (first :: more ++ ["GeneratedAdapter"]) [a.name]) := by
  have htrait : PlainPath root first (more ++ ["GeneratedAdapter"]) := hpath.append (by decide)
  have heq : a.dispatchTokens ++ rest = .ident { text := "impl" } :: pathFrom root first
      (moreNames (more ++ ["GeneratedAdapter"]) ++ .ident { text := "for" } ::
        .ident { text := a.name } :: (angles [.lifetime "_" {}] ++
          .group .brace (.ident { text := "fn" } :: .ident { text := "call_methods" } ::
            .group .paren a.parameters {} {} :: [.group .brace a.bodyTokens {} {}]) {} {} :: rest)) := by
    unfold Adapter.dispatchTokens
    simp only [List.append_assoc, runtimeName_eq hruntime]
    simp [Code.op1, Code.word, Tree.operator, Tree.word, angles, Code.angled, Code.lifetime,
      Code.braces, Code.parens, Tree.grouped]
  have hbody := h.statementList (n := n) hpath hruntime
  have hmethod : Passes (implItem (.ofDepth (n + 13))) (.ident { text := "fn" } ::
      .ident { text := "call_methods" } :: .group .paren a.parameters {} {} ::
        [.group .brace a.bodyTokens {} {}]) [] :=
    parses_implItem_method (by decide) (parses_parameters hpath hruntime) (.nothing rfl) hbody.parses
      hbody.hash
  rw [heq]
  refine parses_implBlock ⟨?_, hpath.isOp_start _ (by decide)⟩
    (htrait.parses_ty (.ident _ _)) (parses_ty_lifetime h.name.2 "_" (.braces _ _))
    (.cons hmethod (by simp) .nil) rfl
  simp [startsGenerics, hpath.isOp_start]

omit hpath hruntime in
-- The body of the function that hands the adapter out.
theorem Named.statementList_record (h : a.Named) :
    StatementList (.ofDepth (n + 12)) [.ident { text := a.name }, .group .brace
      [.ident { text := "receiver" }, .punct ':' false {}, .ident { text := "self" }] {} {}] := by
  have hname : PlainPath [] a.name [] := .ofName h.name.2
  have hself : PlainPath [] "self" [] :=
    ⟨.inl rfl, fun n hn => .inr (List.mem_singleton.1 hn ▸ by decide), fun _ => by decide⟩
  have hvalue : Passes (exprTokens (.ofDepth (n + 10)) true) [.ident { text := "self" }] [] :=
    parses_exprTokens (hself.parses_unary .nil) .nil
  have hunary : Parses (unary (.ofDepth (n + 10)) true) [.ident { text := a.name }, .group .brace
      [.ident { text := "receiver" }, .punct ':' false {}, .ident { text := "self" }] {} {}] []
      IsSettled :=
    parses_unary (hname.startsAtom _) (parses_atom_record h.name.2 (by decide) hvalue) .nil
  exact .cons (.of_name h.name.2 rfl rfl) rfl (hname.endsStatement _)
    (.last (hname.isWord_start _ (by decide)) (startsItem_name (.inl h.name.2) rfl)
      (hname.parses_early hunary .nil) rfl) (by simp) .nil

theorem Named.parses_observerTokens (h : a.Named) (rest : List Tree) :
    Parses (implBlock (.ofDepth (n + 13))) (a.observerTokens ++ rest) rest
      (IsImplOf (first :: more ++ ["LifecycleObserver"]) [a.subject]) := by
  have htrait : PlainPath root first (more ++ ["LifecycleObserver"]) := hpath.append (by decide)
  obtain ⟨value, hvalue⟩ : ∃ value : List Tree, value = [.ident { text := a.name }, .group .brace
    [.ident { text := "receiver" }, .punct ':' false {}, .ident { text := "self" }] {} {}] := ⟨_, rfl⟩
  obtain ⟨method, hmethod⟩ : ∃ method : List Tree, method = .ident { text := "fn" } ::
    .ident { text := "lifecycle_adapter" } :: .group .paren
      [.punct '&' false {}, .ident { text := "mut" }, .ident { text := "self" }] {} {} ::
        .punct '-' true {} :: .punct '>' false {} :: pathFrom [] "Self" (moreNames [] ++
          (moreNames ["Adapter"] ++ (angles [.lifetime "_" {}] ++ [.group .brace value {} {}]))) :=
    ⟨_, rfl⟩
  obtain ⟨clause, hclause⟩ : ∃ clause : List Tree, clause = [.ident { text := "where" },
    .ident { text := "Self" }, .punct ':' false {}, .lifetime "r" {}] := ⟨_, rfl⟩
  have heq : a.observerTokens ++ rest = .ident { text := "impl" } :: pathFrom root first
      (moreNames (more ++ ["LifecycleObserver"]) ++ .ident { text := "for" } ::
        pathFrom [] a.subject (moreNames [] ++ .group .brace (.ident { text := "type" } ::
          .ident { text := "Adapter" } :: (angles [.lifetime "r" {}] ++ .punct '=' false {} ::
            (.ident { text := a.name } :: angles [.lifetime "r" {}] ++
              (clause ++ .punct ';' false {} :: method)))) {} {} :: rest)) := by
    unfold Adapter.observerTokens
    simp only [List.append_assoc, runtimeName_eq hruntime]
    simp [hvalue, hmethod, hclause, Code.op1, Code.op2, Code.colons, Code.word, Tree.operator,
      Tree.word, angles, Code.angled, Code.lifetime, Code.braces, Code.parens, Tree.grouped, moreNames]
  rw [heq]
  have hself : PlainPath [] "Self" [] :=
    ⟨.inl rfl, fun n hn => .inr (List.mem_singleton.1 hn ▸ by decide), fun _ => by decide⟩
  have houtput : Passes (ty (.ofDepth (n + 12)) true) (pathFrom [] "Self" (moreNames [] ++
      (moreNames ["Adapter"] ++ (angles [.lifetime "_" {}] ++ [.group .brace value {} {}]))))
      [.group .brace value {} {}] := by
    have harguments : Passes (angleArguments (.ofDepth (n + 12)))
        (angles [.lifetime "_" {}] ++ [.group .brace value {} {}]) [.group .brace value {} {}] :=
      parses_angleArguments (by simp) (by simp) (parses_argument_lifetime "_")
    refine (hself.parses_ty_of_path (parses_path (.inl rfl) hself.first_segment (by simp)
      (parses_segment_angles (by decide) harguments) rfl ?_) (.braces _ _)).passes
    simp [angles]
  have hvalueList := hvalue ▸ h.statementList_record (n := n)
  have hmethodItem : Passes (implItem (.ofDepth (n + 13))) method [] :=
    hmethod ▸ parses_implItem_method (by decide) parses_params_receiver (.type houtput)
      hvalueList.parses hvalueList.hash
  have htypeItem : Passes (implItem (.ofDepth (n + 13))) (.ident { text := "type" } ::
      .ident { text := "Adapter" } :: (angles [.lifetime "r" {}] ++ .punct '=' false {} ::
        (.ident { text := a.name } :: angles [.lifetime "r" {}] ++
          (clause ++ .punct ';' false {} :: method)))) method := by
    refine parses_implItem_type (by decide) hself.first_segment (by decide) hclause ?_
    have hends : EndsType (clause ++ .punct ';' false {} :: method) := hclause ▸ .ident _ _
    exact (parses_ty_lifetime h.name.2 "r" hends).passes
  refine parses_implBlock ⟨?_, hpath.isOp_start _ (by decide)⟩ (htrait.parses_ty (.ident _ _))
    ((PlainPath.ofName h.subject.2).parses_ty (.braces _ _))
    (.cons htypeItem ?_ (.cons hmethodItem ?_ .nil)) rfl
  · simp [startsGenerics, hpath.isOp_start]
  · simp only [List.length_append, List.length_cons]
    omega
  · simp [hmethod]

omit hpath hruntime in
-- The structure that borrows the object, behind its comment.
theorem Named.parses_structTokens (h : a.Named) (rest : List Tree) :
    ∃ mid, Passes (outerTokens (.ofDepth (n + 2))) (a.structTokens ++ rest) mid ∧
      ∀ attributes, Passes (structItem (.ofDepth (n + 2)) attributes) mid rest := by
  have heq : a.structTokens ++ rest = .punct '#' false {} :: .group .bracket
      [.ident { text := "doc" }, .punct '=' false {},
        .literal (String.ofList (Quoted.quote a.doc.toList)) {}] {} {} ::
      (.ident { text := "pub" } :: .ident { text := "struct" } :: .ident { text := a.name } ::
        (angles [.lifetime "r" {}] ++ .group .brace (.ident { text := "receiver" } ::
          .punct ':' false {} :: ([.punct '&' false {}, .lifetime "r" {}, .ident { text := "mut" },
            .ident { text := a.subject }] ++ [.punct ',' false {}])) {} {} :: rest)) := by
    unfold Adapter.structTokens
    simp [Code.op1, Code.word, Tree.operator, Tree.word, angles, Code.angled, Code.lifetime,
      Code.braces, Code.brackets, Tree.grouped, Code.quoted]
  have hsubject : Passes (ty (.ofDepth n) false)
      (pathFrom [] a.subject (moreNames [] ++ [.punct ',' false {}])) [.punct ',' false {}] :=
    ((PlainPath.ofName h.subject.2).parses_ty (.punct (by decide) _)).passes
  have hfield : Passes (ty (.ofDepth (n + 1)) true) ([.punct '&' false {}, .lifetime "r" {},
      .ident { text := "mut" }, .ident { text := a.subject }] ++ [.punct ',' false {}])
      [.punct ',' false {}] :=
    (parses_ty_reference (Parses.lifetimeOpt _ _) (Parses.wordOpt _ _).passes hsubject).passes
  rw [heq]
  exact ⟨_, parses_outerTokens_doc _ (by simp), fun attributes =>
    parses_structItem h.name.2 (by decide) "r" hfield attributes⟩

end Adapter

-- The code of an adapter, as a file of three items.
def Grammar.adapterItems (g : Level) : Parser (List Tree × ImplBlock × ImplBlock) := do
  let attributes ← outerTokens g
  return (← structItem g attributes, ← implBlock g, ← implBlock g)

namespace Adapter

variable {a : Adapter} {root : List Tree} {first : String} {more : List String} {n : Nat}

theorem Named.parses_tokens (h : a.Named) (hpath : PlainPath root first more)
    (hruntime : a.runtime.tokens = pathFrom root first (moreNames more)) :
    Parses (adapterItems (.ofDepth (n + 13))) a.tokens []
      fun (_, dispatch, observer) =>
        IsImplOf (first :: more ++ ["GeneratedAdapter"]) [a.name] dispatch ∧
          IsImplOf (first :: more ++ ["LifecycleObserver"]) [a.subject] observer := by
  have hdispatch := h.parses_dispatchTokens (n := n) hpath hruntime (a.observerTokens ++ [])
  have hobserver := h.parses_observerTokens (n := n) hpath hruntime []
  obtain ⟨mid, houter, hstruct⟩ :=
    h.parses_structTokens (n := n + 11) (a.dispatchTokens ++ (a.observerTokens ++ []))
  have heq : a.tokens = a.structTokens ++ (a.dispatchTokens ++ (a.observerTokens ++ [])) := by
    simp [Adapter.tokens]
  rw [heq]
  refine .bind houter fun attributes _ => .bind (hstruct attributes) fun _ _ => ?_
  exact .bind hdispatch fun _ hd => .bind hobserver fun _ ho => .pure ⟨hd, ho⟩

end Adapter

end Lifecycle
