import Lifecycle.Observer.Expand
import Lifecycle.Proofs.Code
import Lifecycle.Proofs.Extraction

namespace Lifecycle

open Text Code Lifecycle.Tree

namespace Tree

theorem text_eq_of_bare_eq {trees more : List Tree} (h : bare trees = bare more) :
    Tree.text trees = Tree.text more := by
  rw [Tree.text, ← render_bare, h, render_bare, Tree.text]

-- A space stands between trees and what follows them, unless the last one is joined to it.
theorem render_append (trees : List Tree) {more : List Tree} {t : Tree} (ht : t.isJoint = false)
    (hmore : more ≠ []) :
    render (trees ++ [t] ++ more) = render (trees ++ [t]) ++ ' ' :: render more := by
  induction trees with
  | nil =>
    have hmore' : more.isEmpty = false := by simpa using hmore
    simp [render_cons, hmore', gap, ht]
  | cons u trees ih =>
    have hrest : (trees ++ [t] ++ more).isEmpty = false := by simp
    have hfront : (trees ++ [t]).isEmpty = false := by simp
    rw [List.cons_append, List.cons_append, render_cons u, hrest, render_cons u, hfront, ih]
    simp

end Tree

namespace Processor

variable {s : Settings} {p : Processor} {d : Declaration} {a : Adapter}

theorem runtimePath_of_ofSettings (h : ofSettings s = .ok p) :
    runtimePath s.runtimePath = .ok p.generator.runtime := by
  obtain ⟨path, hpath, rfl⟩ := ofSettings_eq_ok_iff.1 h
  exact hpath

theorem named_of_adapter? (h : p.adapter? d = some a) :
    a.Named ∧ a.runtime = p.generator.runtime := by
  obtain ⟨-, entry, -, ha⟩ := (adapter?_eq_some_iff p d a).1 h
  obtain ⟨-, -, -, -, -, -, hruntime, -⟩ := Generator.adapter_eq_ok_iff.1 ha
  exact ⟨Generator.named_of_adapter ha, hruntime⟩

-- The text of the adapter of a class is read.
theorem exists_read?_bodyOf (hp : ofSettings s = .ok p) (ha : p.adapter? d = some a) :
    ∃ trees, Tree.read? (Generator.bodyOf a).toList = some trees ∧
      bare trees = retold a.tokens := by
  obtain ⟨hnamed, hruntime⟩ := named_of_adapter? ha
  refine hnamed.exists_read? ?_
  rw [hruntime]
  exact legible_of_runtimePath (runtimePath_of_ofSettings hp)

-- If the path of the runtime has no arguments, it is read as it was written.
theorem retold_tokens (hp : ofSettings s = .ok p) (ha : p.adapter? d = some a)
    (hplain : p.generator.runtime.isPlain = true) : retold a.tokens = bare a.tokens := by
  obtain ⟨hnamed, hruntime⟩ := named_of_adapter? ha
  refine (hnamed.tokens.to_neat ?_).retold_eq_bare
  rw [hruntime]
  exact neat_of_runtimePath (runtimePath_of_ofSettings hp) hplain

-- There is a `!` in the code of an adapter only if there is one in the path of the runtime.
theorem bang_mem_puncts {code : List Tree} (ha : p.adapter? d = some a)
    (hcode : bare code = retold a.tokens) (hbang : '!' ∈ puncts code) :
    '!' ∈ puncts p.generator.runtime.tokens := by
  obtain ⟨hnamed, hruntime⟩ := named_of_adapter? ha
  have hpuncts : puncts code = puncts a.tokens := by
    rw [← puncts_bare, hcode, puncts_retold]
  rw [hpuncts] at hbang
  exact hruntime ▸ (hnamed.tokens.mem_puncts hbang).resolve_left (by decide)

end Processor

namespace Tree

-- The `!` form that the compiler answers with an error, with one literal in its braces.
def errorForm (literal : String) : List Tree :=
  [.punct ':' true {}, .punct ':' false {}, .ident { text := "core" }, .punct ':' true {},
    .punct ':' false {}, .ident { text := "compile_error" }, .punct '!' false {},
    .group .brace [.literal literal {}] {} {}]

-- Code that makes the compiler tell a message, and nothing else: the literal in the form is the message
-- in quotes, and it is read as the message again.
structure Tells (message : String) (code : List Tree) : Prop where
  form : code = errorForm (String.ofList (Quoted.quote message.toList))
  reads : Literal.ofText (String.ofList (Quoted.quote message.toList)) = .str message.toList []

theorem tells_iff {message : String} {code : List Tree} :
    Tells message code ↔ code = compileError message := by
  have hform : compileError message = errorForm (String.ofList (Quoted.quote message.toList)) := rfl
  refine ⟨fun h => h.form.trans hform.symm, fun h => ⟨h.trans hform, ?_⟩⟩
  rw [Literal.ofText, String.toList_ofList, Literal.ofChars_quote]

-- No two messages are told by the same code.
theorem Tells.unique {message other : String} {code : List Tree} (h : Tells message code)
    (hother : Tells other code) : message = other := by
  have hform := h.form.symm.trans hother.form
  have hliteral : String.ofList (Quoted.quote message.toList) =
      String.ofList (Quoted.quote other.toList) := by
    simpa [errorForm] using hform
  have hvalue := h.reads.symm.trans ((congrArg Literal.ofText hliteral).trans hother.reads)
  exact String.toList_inj.1 (Literal.str.inj hvalue).1

-- Code for messages in their order, as it is told, is the code that is written for them.
theorem forall₂_tells_iff {messages : List String} {parts : List (List Tree)} :
    List.Forall₂ Tells messages parts ↔ messages.map compileError = parts := by
  have htells : Tells = fun message code => compileError message = code := by
    funext message code
    exact propext (tells_iff.trans eq_comm)
  rw [htells, ← List.forall₂_map_left_iff, List.forall₂_eq_eq_eq]

end Tree

-- Whether a list names, for each callback, the first rule that it breaks.
def Rules.FirstBroken (r : Rules) (callbacks : List Callback) (broken : List Violation) : Prop :=
  callbacks.map (fun c => Violation.all.find? (r.breaks c.params)) = broken.map some

instance (r : Rules) (callbacks : List Callback) (broken : List Violation) :
    Decidable (r.FirstBroken callbacks broken) :=
  inferInstanceAs (Decidable (_ = _))

theorem Rules.FirstBroken.unique {r : Rules} {callbacks : List Callback} {broken more : List Violation}
    (h : r.FirstBroken callbacks broken) (hmore : r.FirstBroken callbacks more) : broken = more :=
  List.map_injective_iff.2 (Option.some_injective _) (h.symm.trans hmore)

theorem Diagnostic.firstBroken {r : Rules} {callbacks : List Callback} {told : List Diagnostic}
    (h : List.Forall₂ (Diagnostic.Tells r) callbacks told) :
    r.FirstBroken callbacks (told.map (·.violation)) := by
  induction h with
  | nil => rfl
  | cons htells _ ih => exact List.cons_eq_cons.2 ⟨htells.violation, ih⟩

-- What follows a block under some settings, case by case.
inductive ImplBlock.Follows (s : Settings) (b : ImplBlock) : List Tree → Prop where
  -- The faults of the block, each as an error. Whatever the settings are, they are not looked at.
  | faults {errors : List (List Tree)} (h : b.extract.faults ≠ [])
      (hall : List.Forall₂ Tells (b.extract.faults.map (·.message)) errors) :
    Follows s b errors.flatten
  -- The settings cannot be used.
  | settings {e : GenerationError} {error : List Tree} (h : b.extract.faults = [])
      (he : Processor.ofSettings s = .error e) (htells : Tells e.message error) :
    Follows s b error
  -- The class cannot be generated.
  | ungenerated {d : Declaration} {p : Processor} {e : GenerationError} {error : List Tree}
      (h : b.extract.faults = []) (hd : b.extract.declaration = some d)
      (hp : Processor.ofSettings s = .ok p) (he : p.outcome d = .error e)
      (htells : Tells e.message error) :
    Follows s b error
  -- Callbacks that break a rule, each with the message of the first one that it breaks.
  | rejected {d : Declaration} {p : Processor} {broken : List Violation} {errors : List (List Tree)}
      (h : b.extract.faults = []) (hd : b.extract.declaration = some d)
      (hp : Processor.ofSettings s = .ok p) (hne : p.rules.rejected d.callbacks ≠ [])
      (hbroken : p.rules.FirstBroken (p.rules.rejected d.callbacks) broken)
      (hall : List.Forall₂ Tells (broken.map (·.message)) errors) :
    Follows s b errors.flatten
  -- No method is marked.
  | unmarked {p : Processor} (h : b.extract.faults = []) (hp : Processor.ofSettings s = .ok p)
      (hnone : b.marked = []) :
    Follows s b []
  -- The code of the adapter, as its text is read. It has no `!` and so no error, at any depth, unless
  -- there is one in the path that the settings give for the runtime.
  | adapter {d : Declaration} {p : Processor} {a : Adapter} {code : List Tree}
      (h : b.extract.faults = []) (hd : b.extract.declaration = some d)
      (hp : Processor.ofSettings s = .ok p) (hsome : b.marked ≠ [])
      (ha : p.adapter? d = some a) (hread : Tree.read? (Generator.bodyOf a).toList = some code)
      (hcode : bare code = retold a.tokens)
      (hbang : '!' ∈ puncts code → '!' ∈ puncts p.generator.runtime.tokens) :
    Follows s b code

namespace ObserverOptions

variable {rt : String} {o : ObserverOptions} {b : ImplBlock}

-- What is generated for a block, as it is appended to it.
def appended (o : ObserverOptions) (rt : String) (b : ImplBlock) : List Tree :=
  match o.generated rt b.extract with
  | .ok code => code
  | .error messages => messages.flatMap compileError

theorem expand_eq {arguments item : List Tree} (harguments : ofTrees arguments = .ok o)
    (hitem : Grammar.parseTrees Grammar.implBlock item {} = .ok b) :
    expand rt arguments item = b.extract.cleaned.tokens ++ o.appended rt b := by
  simp only [expand, harguments, hitem, appended]
  cases o.generated rt b.extract <;> rfl

-- The methods that are marked are the callbacks, all of them kept.
theorem declared {d : Declaration} (h : b.extract.faults = [])
    (hd : b.extract.declaration = some d) :
    (b.marked = [] ↔ d.callbacks = []) ∧ d.kept = d.callbacks := by
  have hlen := (ImplBlock.forall₂_declaredAs h hd).length_eq
  refine ⟨?_, ImplBlock.kept_eq_callbacks hd⟩
  rw [← List.length_eq_zero_iff, hlen, List.length_eq_zero_iff]

theorem follows_appended : b.Follows (o.settings rt) (o.appended rt b) := by
  by_cases h : b.extract.faults = []
  · obtain ⟨subject, hd, -⟩ := ImplBlock.declaration_of_no_faults h
    generalize ({ subject, callbacks := numbered subject b.foundCallbacks } : Declaration) = d at hd
    obtain ⟨hmarked, hkept⟩ := declared h hd
    cases hp : Processor.ofSettings (o.settings rt) with
    | error e =>
      have happended : o.appended rt b = compileError e.message := by
        simp [appended, generated, h, hd, hp]
      exact .settings h hp (tells_iff.2 happended)
    | ok p =>
      cases hout : p.outcome d with
      | error e =>
        have happended : o.appended rt b = compileError e.message := by
          simp [appended, generated, h, hd, hp, hout]
        exact .ungenerated h hd hp hout (tells_iff.2 happended)
      | ok outcome =>
        cases outcome with
        | skipped =>
          have happended : o.appended rt b = [] := by
            simp [appended, generated, h, hd, hp, hout]
          have hnone := hmarked.2 ((Processor.outcome_eq_skipped_iff p d).1 hout)
          exact happended ▸ .unmarked h hp hnone
        | failed told =>
          obtain ⟨hne, htold⟩ := (Processor.outcome_eq_failed_iff p d told).1 hout
          rw [hkept] at hne htold
          have happended : o.appended rt b =
              (((told.map (·.violation)).map (·.message)).map compileError).flatten := by
            simp [appended, generated, h, hd, hp, hout, List.flatMap_def, Function.comp_def]
          exact happended ▸ .rejected h hd hp hne (Diagnostic.firstBroken htold)
            (forall₂_tells_iff.2 rfl)
        | generated u =>
          obtain ⟨a, ha, rfl⟩ := (Processor.outcome_eq_generated_iff_adapter? p d u).1 hout
          obtain ⟨code, hread, hcode⟩ := Processor.exists_read?_bodyOf hp ha
          have happended : o.appended rt b = code := by
            simp [appended, generated, h, hd, hp, hout, hread]
          have hsome : b.marked ≠ [] := fun hnone => by
            simp [Processor.outcome_of_no_callbacks p (hmarked.1 hnone)] at hout
          exact happended ▸ .adapter h hd hp hsome ha hread hcode (Processor.bang_mem_puncts ha hcode)
  · have happended : o.appended rt b =
        ((b.extract.faults.map (·.message)).map compileError).flatten := by
      simp [appended, generated, h, List.flatMap_def, Function.comp_def]
    exact happended ▸ .faults h (forall₂_tells_iff.2 rfl)

-- No two of the cases hold of a block, and none of them leaves a choice.
theorem eq_appended_of_follows {tail : List Tree} (h : b.Follows (o.settings rt) tail) :
    tail = o.appended rt b := by
  cases h with
  | faults h hall =>
    obtain rfl := forall₂_tells_iff.1 hall
    simp [appended, generated, h, List.flatMap_def, Function.comp_def]
  | settings h he htells =>
    obtain ⟨subject, hd, -⟩ := ImplBlock.declaration_of_no_faults h
    obtain rfl := tells_iff.1 htells
    simp [appended, generated, h, hd, he]
  | ungenerated h hd hp he htells =>
    obtain rfl := tells_iff.1 htells
    simp [appended, generated, h, hd, hp, he]
  | @rejected d p broken errors h hd hp hne hbroken hall =>
    obtain ⟨-, hkept⟩ := declared h hd
    rw [← hkept] at hne hbroken
    have htold := Diagnostic.firstBroken (Processor.judgeAll_fst p.rules d.kept)
    obtain rfl := forall₂_tells_iff.1 hall
    rw [hbroken.unique htold]
    simp [appended, generated, h, hd, hp, Processor.outcome_of_rejected hne, List.flatMap_def,
      Function.comp_def]
  | @unmarked p h hp hnone =>
    obtain ⟨subject, hd, -⟩ := ImplBlock.declaration_of_no_faults h
    have hskipped := Processor.outcome_of_no_callbacks p ((declared h hd).1.1 hnone)
    simp [appended, generated, h, hd, hp, hskipped]
  | @adapter d p a code h hd hp hsome ha hread hcode _ =>
    have hout := (Processor.outcome_eq_generated_iff_adapter? p d _).2 ⟨a, ha, rfl⟩
    simp [appended, generated, h, hd, hp, hout, hread]

end ObserverOptions

-- What follows the cleaned block is given by the one case that holds of it. A class is only missing
-- if that is told, and the callbacks of the class are the marked methods in their order.
theorem expand_of_block {rt : String} {arguments item : List Tree} {o : ObserverOptions}
    {b : ImplBlock} (harguments : ObserverOptions.ofTrees arguments = .ok o)
    (hitem : Grammar.parseTrees Grammar.implBlock item {} = .ok b) :
    (∃ tail, expand rt arguments item = b.extract.cleaned.tokens ++ tail) ∧
      (∀ tail, expand rt arguments item = b.extract.cleaned.tokens ++ tail ↔
        b.Follows (o.settings rt) tail) ∧
      (b.extract.declaration = none → b.extract.faults ≠ []) ∧
      (∀ d, b.extract.faults = [] → b.extract.declaration = some d →
        List.Forall₂ (Method.DeclaredAs d.subject) b.marked d.callbacks) := by
  have hexpand : expand rt arguments item = b.extract.cleaned.tokens ++ o.appended rt b :=
    ObserverOptions.expand_eq harguments hitem
  refine ⟨⟨_, hexpand⟩, fun tail => ⟨fun htail => ?_, fun hfollows => ?_⟩,
    ImplBlock.faults_ne_nil_of_no_declaration, fun d => ImplBlock.forall₂_declaredAs⟩
  · obtain rfl := List.append_cancel_left (hexpand.symm.trans htail)
    exact ObserverOptions.follows_appended
  · rw [hexpand, ObserverOptions.eq_appended_of_follows hfollows]

-- A block of two callbacks that break a rule.
def twoRejected : String :=
  "impl Screen \x7b
     #[on_lifecycle_event] fn counted(&self, n: u8) \x7b\x7d
     #[on_lifecycle_event] fn moved(&self, a: u8, b: u8, c: u8) \x7b\x7d
   \x7d"

set_option maxRecDepth 2000 in
theorem expand_of_block_twoRejected :
    ∃ item o b, Tree.read? twoRejected.toList = some item ∧
      ObserverOptions.ofTrees [] = .ok o ∧
      Grammar.parseTrees Grammar.implBlock item {} = .ok b ∧
      ∃ first second, expand "::vigil_lifecycle" [] item =
          b.extract.cleaned.tokens ++ (first ++ second) ∧
        Tells Violation.invalidFirstArgument.message first ∧
        Tells Violation.tooManyArguments.message second := by
  have hcheck : (Tree.read? twoRejected.toList).any (fun item =>
      (ObserverOptions.ofTrees []).toOption.any fun o =>
        (Grammar.parseTrees Grammar.implBlock item {}).toOption.any fun b =>
          b.extract.faults.isEmpty && b.extract.declaration.any fun d =>
            (Processor.ofSettings (o.settings "::vigil_lifecycle")).toOption.any fun p =>
              decide (p.rules.rejected d.callbacks ≠ [] ∧
                p.rules.FirstBroken (p.rules.rejected d.callbacks)
                  [.invalidFirstArgument, .tooManyArguments])) = true := by
    have hchars : twoRejected.toList = _ := String.toList_ofList
    rw [hchars]
    decide +kernel
  obtain ⟨item, hitem, o, ho, b, hb, hfaults, d, hd, p, hp, hne, hbroken⟩ := by
    simpa only [Option.any_eq_true, Bool.and_eq_true_iff, decide_eq_true_iff,
      Fallible.toOption_eq_some_iff] using hcheck
  have hfirst := tells_iff.2 (Eq.refl (compileError Violation.invalidFirstArgument.message))
  have hsecond := tells_iff.2 (Eq.refl (compileError Violation.tooManyArguments.message))
  refine ⟨item, o, b, hitem, ho, hb, _, _, ((expand_of_block ho hb).2.1 _).2 ?_, hfirst, hsecond⟩
  have hfollows := ImplBlock.Follows.rejected (List.isEmpty_iff.1 hfaults) hd hp hne hbroken
    (.cons hfirst (.cons hsecond .nil))
  simpa using hfollows

-- With a path of the runtime that has no arguments, what follows the cleaned block is the text of the
-- adapter below its first line, character for character.
theorem expand_of_generated {rt : String} {arguments item : List Tree} {o : ObserverOptions}
    {b : ImplBlock} {d : Declaration} {p : Processor} {u : SourceUnit}
    (harguments : ObserverOptions.ofTrees arguments = .ok o)
    (hitem : Grammar.parseTrees Grammar.implBlock item {} = .ok b)
    (hfaults : b.extract.faults = []) (hd : b.extract.declaration = some d)
    (hp : Processor.ofSettings (o.settings rt) = .ok p) (hu : p.outcome d = .ok (.generated u))
    (hplain : p.generator.runtime.isPlain = true) :
    ∃ a code, p.adapter? d = some a ∧ Tree.read? u.body.toList = some code ∧
      expand rt arguments item = b.extract.cleaned.tokens ++ code ∧
      bare code = bare a.tokens ∧
      u.body = generatedHeader ++ "\n" ++ Tree.text code ++ "\n" ∧
      Tree.text (expand rt arguments item) =
        Tree.text b.extract.cleaned.tokens ++ " " ++ Tree.text code := by
  obtain ⟨a, ha, rfl⟩ := (Processor.outcome_eq_generated_iff_adapter? p d u).1 hu
  obtain ⟨code, hread, hretold⟩ := Processor.exists_read?_bodyOf hp ha
  have hcode : bare code = bare a.tokens := hretold.trans (Processor.retold_tokens hp ha hplain)
  have hmarked : b.marked ≠ [] := fun hnone => by
    have hcallbacks := (ObserverOptions.declared hfaults hd).1.1 hnone
    simp [Processor.outcome_of_no_callbacks p hcallbacks] at hu
  have hexpand : expand rt arguments item = b.extract.cleaned.tokens ++ code :=
    ((expand_of_block harguments hitem).2.1 code).2
      (.adapter hfaults hd hp hmarked ha hread hretold (Processor.bang_mem_puncts ha hretold))
  refine ⟨a, code, ha, hread, hexpand, hcode, ?_, ?_⟩
  · rw [Tree.text_eq_of_bare_eq hcode]
    rfl
  · have hne : code ≠ [] := fun hnil => by
      simp [hnil, Adapter.tokens, Adapter.structTokens, op1, Tree.operator, bare] at hcode
    rw [hexpand, ImplBlock.tokens, Tree.text, Tree.render_append _ (by rfl) hne]
    simp [Tree.text, String.ofList_append, String.append_assoc]

-- A block of one callback, and options that say where the runtime is.
def oneCallback : String :=
  "impl Screen \x7b #[on_lifecycle_event] fn seen(&self) \x7b\x7d \x7d"

def runtimeOption : String :=
  "crate = \x22::a::b\x22"

theorem expand_of_generated_oneCallback :
    ∃ arguments item o b d p u code, Tree.read? runtimeOption.toList = some arguments ∧
      Tree.read? oneCallback.toList = some item ∧
      ObserverOptions.ofTrees arguments = .ok o ∧
      Grammar.parseTrees Grammar.implBlock item {} = .ok b ∧ b.extract.faults = [] ∧
      b.extract.declaration = some d ∧ Processor.ofSettings (o.settings "") = .ok p ∧
      p.outcome d = .ok (.generated u) ∧ p.generator.runtime.isPlain = true ∧
      Tree.read? u.body.toList = some code ∧
      expand "" arguments item = b.extract.cleaned.tokens ++ code ∧
      u.body = generatedHeader ++ "\n" ++ Tree.text code ++ "\n" := by
  have hcheck : (Tree.read? runtimeOption.toList).any (fun arguments =>
      (Tree.read? oneCallback.toList).any fun item =>
        (ObserverOptions.ofTrees arguments).toOption.any fun o =>
          (Grammar.parseTrees Grammar.implBlock item {}).toOption.any fun b =>
            b.generates (o.settings "") &&
              (Processor.ofSettings (o.settings "")).toOption.all (·.generator.runtime.isPlain)) =
      true := by
    decide +kernel
  obtain ⟨arguments, harguments, item, hitem, o, ho, b, hb, hgenerates, hplain⟩ := by
    simpa only [Option.any_eq_true, Bool.and_eq_true_iff, Fallible.toOption_eq_some_iff] using hcheck
  obtain ⟨d, p, u, hfaults, hd, hp, hu⟩ := ImplBlock.exists_generated hgenerates
  have hpath : p.generator.runtime.isPlain = true := by
    simpa [hp, Except.toOption] using hplain
  obtain ⟨a, code, -, hread, hexpand, -, hbody, -⟩ :=
    expand_of_generated ho hb hfaults hd hp hu hpath
  exact ⟨arguments, item, o, b, d, p, u, code, harguments, hitem, ho, hb, hfaults, hd, hp, hu, hpath,
    hread, hexpand, hbody⟩

end Lifecycle
