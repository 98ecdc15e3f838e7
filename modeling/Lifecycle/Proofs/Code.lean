import Lifecycle.Proofs.Names
import Lifecycle.Proofs.Token.Reading

namespace Lifecycle

open Text Code Lifecycle.Tree

namespace Tree

-- The punctuation characters of some trees, those inside of groups included.
def puncts : List Tree → List Char
  | [] => []
  | .punct c _ _ :: rest => c :: puncts rest
  | .group _ body _ _ :: rest => puncts body ++ puncts rest
  | _ :: rest => puncts rest

@[simp] theorem puncts_append (trees more : List Tree) :
    puncts (trees ++ more) = puncts trees ++ puncts more := by
  induction trees using puncts.induct <;> simp_all [puncts]

@[simp] theorem puncts_bare (trees : List Tree) : puncts (bare trees) = puncts trees := by
  induction trees using bare.induct <;> simp_all [puncts, bare]

@[simp] theorem puncts_retold (trees : List Tree) : puncts (retold trees) = puncts trees := by
  induction trees using retold.induct <;> simp_all [puncts, retold]

end Tree

-- Code that is made of the runtime path and of tokens that are read as they are written, with no
-- punctuation but that of the generator.
inductive MadeWith (path : List Tree) : List Tree → Prop where
  | neat {trees : List Tree} (h : Neat trees) (hsigns : puncts trees ⊆ ownSigns) :
    MadeWith path trees
  | path : MadeWith path path
  | append {trees more : List Tree} (h : MadeWith path trees) (hmore : MadeWith path more) :
    MadeWith path (trees ++ more)
  | grouped (d : Delimiter) {body : List Tree} (h : MadeWith path body) :
    MadeWith path [Tree.grouped d body]

namespace MadeWith

variable {path trees more body : List Tree} {name : String} {c d : Char}

theorem legible (h : MadeWith path trees) (hpath : Legible path) : Legible trees := by
  induction h with
  | neat h _ => exact h.legible
  | path => exact hpath
  | append _ _ ih ihmore => exact ih.append ihmore
  | grouped _ _ ih => exact .single_group ih

theorem to_neat (h : MadeWith path trees) (hpath : Neat path) : Neat trees := by
  induction h with
  | neat h _ => exact h
  | path => exact hpath
  | append _ _ ih ihmore => exact ih.append ihmore
  | grouped _ _ ih => exact .group ih .nil

-- Every punctuation character of the code is the generator's own or stands in the path.
theorem mem_puncts (h : MadeWith path trees) (hc : c ∈ puncts trees) :
    c ∈ ownSigns ∨ c ∈ puncts path := by
  induction h with
  | neat _ hsigns => exact .inl (hsigns hc)
  | path => exact .inr hc
  | append _ _ ih ihmore =>
    rw [puncts_append, List.mem_append] at hc
    exact hc.elim ih ihmore
  | grouped _ _ ih => exact ih (by simpa [puncts, Tree.grouped] using hc)

theorem nil : MadeWith path [] :=
  .neat .nil (by simp [puncts])

theorem name_word (h : IsName name.toList) : MadeWith path (word name) :=
  .neat (.ident h .nil) (by simp [puncts, Code.word, Tree.word])

theorem word [h : Listed name ownWords] : MadeWith path (Code.word name) :=
  name_word (isName_of_mem_ownWords name h.mem)

theorem identifier (h : IsIdentifier name) : MadeWith path (Code.word name) :=
  name_word h.1

theorem sign [h : Listed c ownSigns] : MadeWith path (op1 c) := by
  obtain ⟨hc, hquote, -⟩ := ownSigns_operator c h.mem
  exact .neat (.alone hc hquote .nil) (by simpa [puncts, op1, Tree.operator] using h.mem)

theorem signs [hc : Listed c ownSigns] [hd : Listed d ownSigns] : MadeWith path (op2 c d) := by
  have hpuncts : puncts (op2 c d) = [c, d] := by simp [puncts, op2, Tree.operator]
  have hsigns : puncts (op2 c d) ⊆ ownSigns :=
    hpuncts ▸ List.cons_subset.2 ⟨hc.mem, List.cons_subset.2 ⟨hd.mem, List.nil_subset _⟩⟩
  obtain ⟨hc, hquote, hslash⟩ := ownSigns_operator c hc.mem
  obtain ⟨hd, hquote', hslash'⟩ := ownSigns_operator d hd.mem
  exact .neat (.joint hc hquote ⟨hslash, hslash'⟩ (.alone hd hquote' .nil)) hsigns

theorem quoted (text : String) : MadeWith path (quoted text) := by
  have hliteral : IsLiteral (String.ofList (Quoted.quote text.toList)).toList := by
    rw [String.toList_ofList]
    exact isLiteral_of_length? (Literal.length?_quote _)
  exact .neat (.literal hliteral .nil) (by simp [puncts, Code.quoted])

theorem lifetime [h : Listed name ownWords] : MadeWith path (Code.lifetime name) :=
  .neat (.lifetime (isName_of_mem_ownWords name h.mem) .nil) (by simp [puncts, Code.lifetime])

theorem angled [Listed name ownWords] : MadeWith path (Code.angled name) :=
  (append sign lifetime).append sign

theorem parens (h : MadeWith path body) : MadeWith path (parens body) :=
  .grouped .paren h

theorem brackets (h : MadeWith path body) : MadeWith path (brackets body) :=
  .grouped .bracket h

theorem braces (h : MadeWith path body) : MadeWith path (braces body) :=
  .grouped .brace h

theorem joined {names : List String} (h : ∀ name ∈ names, IsName name.toList) :
    MadeWith path (joined names) := by
  induction names using Code.joined.induct with
  | case1 => exact nil
  | case2 name => exact name_word (h name (by simp))
  | case3 name rest hrest ih =>
    obtain ⟨hname, hall⟩ := List.forall_mem_cons.1 h
    rw [Code.joined]
    · exact (append (name_word hname) signs).append (ih hall)
    · exact hrest

end MadeWith

theorem Callee.Named.tokens {path : List Tree} {callee : Callee} (h : callee.Named) :
    MadeWith path callee.tokens := by
  cases callee with
  | receiver => exact ((MadeWith.append .word .sign).append .word).append .sign
  | path segments =>
    obtain ⟨name, modules, hname, hmodules, hsegments⟩ := h
    have hnames : ∀ n ∈ segments, IsName n.toList := by
      have hcrate : IsName "crate".toList := isName_of_mem_ownWords "crate" (by decide)
      rcases hsegments with ⟨rfl, -⟩ | rfl
      · simpa using hname.1
      · simpa [or_imp, forall_and] using ⟨hcrate, fun m hm => (hmodules m hm).1, hname.1⟩
    exact (MadeWith.joined hnames).append .signs

namespace Call

theorem Named.statement {path : List Tree} {c : Call} (h : c.Named) :
    MadeWith path c.statement := by
  have hlet : MadeWith path
      (if c.hasResult then Code.word "let" ++ Code.word "_" ++ op1 '=' else []) := by
    split
    · exact (MadeWith.append .word .word).append .sign
    · exact .nil
  have harguments : MadeWith path c.kind.arguments := by
    cases c.kind with
    | noArgs => exact .nil
    | owner => exact .word
    | ownerEvent => exact (MadeWith.append .word .sign).append .word
  exact (((hlet.append h.callee.tokens).append (.identifier h.method)).append
    (.parens harguments)).append .sign

theorem madeWith_question (runtime : Path) (key : String) (kind : CallKind) :
    MadeWith runtime.tokens (question runtime key kind) := by
  have hkind : MadeWith runtime.tokens (Code.word kind.name) := by
    cases kind <;> exact .name_word (.inl (by decide))
  have happroval : MadeWith runtime.tokens (quoted key ++ op1 ',' ++ runtime.tokens ++ colons ++
      Code.word "CallKind" ++ colons ++ Code.word kind.name) := by
    simp only [List.append_assoc]
    exact .append (.quoted _) <| .append .sign <| .append .path <| .append .signs <| .append .word <|
      .append .signs hkind
  unfold question
  simp only [List.append_assoc] at happroval ⊢
  exact .append .word <| .append .sign <| .append .word <| .append (.parens .nil) <| .append .sign <|
    .append .word <| .parens <| .append .sign <| .append .word <| .append .sign <| .append .word <|
    .append .sign <| .append .word happroval.parens

theorem Named.tokens {c : Call} (h : c.Named) (runtime : Path) :
    MadeWith runtime.tokens (c.tokens runtime) := by
  unfold Call.tokens
  split
  · exact h.statement
  · rename_i key hkey
    exact (MadeWith.append .word (madeWith_question runtime key c.kind)).append (.braces h.statement)

theorem madeWith_listTokens {calls : List Call} (h : ∀ c ∈ calls, c.Named) (runtime : Path) :
    MadeWith runtime.tokens (listTokens runtime calls) := by
  induction calls with
  | nil => exact .nil
  | cons c rest ih =>
    obtain ⟨hc, hrest⟩ := List.forall_mem_cons.1 h
    exact (hc.tokens runtime).append (ih hrest)

end Call

namespace Adapter

variable {a : Adapter}

theorem madeWith_runtimeName (name : String) [Listed name ownWords] :
    MadeWith a.runtime.tokens (a.runtimeName name) :=
  (MadeWith.append .path .signs).append .word

theorem madeWith_armTokens {event : Event} {calls : List Call} (h : ∀ c ∈ calls, c.Named) :
    MadeWith a.runtime.tokens (a.armTokens event calls) := by
  have hevent : MadeWith a.runtime.tokens (Code.word event.name) := by
    cases event <;> exact .name_word (.inl (by decide))
  have hname := madeWith_runtimeName (a := a) "LifecycleEvent"
  have hcalls := Call.madeWith_listTokens h a.runtime
  exact (((hname.append .signs).append hevent).append .signs).append hcalls.braces

theorem Named.matchTokens (h : a.Named) : MadeWith a.runtime.tokens a.matchTokens := by
  have harms : MadeWith a.runtime.tokens
      (a.arms.flatMap fun arm => a.armTokens arm.1 arm.2) := by
    have hall := h.arms
    generalize a.arms = arms at hall
    induction arms with
    | nil => exact .nil
    | cons arm rest ih =>
      obtain ⟨harm, hrest⟩ := List.forall_mem_cons.1 hall
      exact (madeWith_armTokens harm).append (ih hrest)
  unfold Adapter.matchTokens
  split
  · exact .nil
  · have hlast : MadeWith a.runtime.tokens (Code.word "_" ++ op2 '=' '>' ++ braces []) :=
      (MadeWith.append .word .signs).append (.braces .nil)
    simp only [List.append_assoc] at hlast ⊢
    exact .append .word <| .append .word <| .braces <| .append harms hlast

theorem Named.structTokens (h : a.Named) (path : List Tree) : MadeWith path a.structTokens := by
  have hname : MadeWith path (Code.word a.name) := .identifier h.name
  have hsubject : MadeWith path (Code.word a.subject) := .identifier h.subject
  have hdoc : MadeWith path (Code.word "doc" ++ op1 '=' ++ quoted a.doc) :=
    (MadeWith.append .word .sign).append (.quoted _)
  unfold Adapter.structTokens
  simp only [List.append_assoc] at hdoc ⊢
  exact .append .sign <| .append hdoc.brackets <| .append .word <| .append .word <| .append hname <|
    .append .angled <| .braces <| .append .word <| .append .sign <| .append .sign <|
    .append .lifetime <| .append .word <| .append hsubject .sign

theorem madeWith_parameters (a : Adapter) : MadeWith a.runtime.tokens a.parameters := by
  have howner := madeWith_runtimeName (a := a) "LifecycleOwner"
  have hevent := madeWith_runtimeName (a := a) "LifecycleEvent"
  have hlogger := madeWith_runtimeName (a := a) "MethodCallsLogger"
  have hmut : MadeWith a.runtime.tokens (if a.asksLog then Code.word "mut" else []) := by
    split
    · exact .word
    · exact .nil
  have hoption : MadeWith a.runtime.tokens (joined ["core", "option", "Option"]) :=
    .joined fun name hname => isName_of_mem_ownWords name
      ((by decide : ["core", "option", "Option"] ⊆ ownWords) hname)
  unfold Adapter.parameters
  simp only [List.append_assoc]
  exact .append .sign <| .append .word <| .append .word <| .append .sign <|
    .append .word <| .append .sign <| .append .sign <| .append .word <| .append howner <|
    .append .sign <| .append .word <| .append .sign <| .append hevent <| .append .sign <|
    .append hmut <| .append .word <| .append .sign <| .append .signs <| .append hoption <|
    .append .sign <| .append .sign <| .append .word <| .append hlogger <| .append .sign .sign

theorem madeWith_discard (path : List Tree) (used : Bool) (name : String)
    [Listed name ownWords] : MadeWith path (if used then [] else Code.discard name) := by
  have hdiscard : MadeWith path (Code.discard name) := by
    unfold Code.discard
    exact (((MadeWith.append .word .word).append .sign).append .word).append .sign
  split
  · exact .nil
  · exact hdiscard

theorem Named.bodyTokens (h : a.Named) : MadeWith a.runtime.tokens a.bodyTokens := by
  have howner := madeWith_discard a.runtime.tokens a.usesOwner "owner"
  have hevent := madeWith_discard a.runtime.tokens a.usesEvent "event"
  have hlogger := madeWith_discard a.runtime.tokens a.asksLog "logger"
  have halways := Call.madeWith_listTokens h.always a.runtime
  unfold Adapter.bodyTokens
  exact (((howner.append hevent).append hlogger).append h.matchTokens).append halways

theorem Named.dispatchTokens (h : a.Named) : MadeWith a.runtime.tokens a.dispatchTokens := by
  have hadapter := madeWith_runtimeName (a := a) "GeneratedAdapter"
  have hname : MadeWith a.runtime.tokens (Code.word a.name) := .identifier h.name
  have hparameters := madeWith_parameters a
  have hbody := h.bodyTokens
  unfold Adapter.dispatchTokens
  simp only [List.append_assoc]
  exact .append .word <| .append hadapter <| .append .word <| .append hname <| .append .angled <|
    .braces <| .append .word <| .append .word <| .append hparameters.parens hbody.braces

theorem Named.observerTokens (h : a.Named) : MadeWith a.runtime.tokens a.observerTokens := by
  have hobserver := madeWith_runtimeName (a := a) "LifecycleObserver"
  have hname : MadeWith a.runtime.tokens (Code.word a.name) := .identifier h.name
  have hsubject : MadeWith a.runtime.tokens (Code.word a.subject) := .identifier h.subject
  have hself : MadeWith a.runtime.tokens (parens (op1 '&' ++ Code.word "mut" ++ Code.word "self")) :=
    .parens ((MadeWith.append .sign .word).append .word)
  have hvalue : MadeWith a.runtime.tokens
      (Code.word a.name ++ braces (Code.word "receiver" ++ op1 ':' ++ Code.word "self")) :=
    hname.append (.braces ((MadeWith.append .word .sign).append .word))
  unfold Adapter.observerTokens
  simp only [List.append_assoc] at hself hvalue ⊢
  exact .append .word <| .append hobserver <| .append .word <| .append hsubject <| .braces <|
    .append .word <| .append .word <| .append .angled <| .append .sign <| .append hname <|
    .append .angled <| .append .word <| .append .word <| .append .sign <| .append .lifetime <|
    .append .sign <| .append .word <| .append .word <| .append hself <| .append .signs <|
    .append .word <| .append .signs <| .append .word <| .append .angled hvalue.braces

theorem Named.tokens (h : a.Named) : MadeWith a.runtime.tokens a.tokens :=
  ((h.structTokens _).append h.dispatchTokens).append h.observerTokens

end Adapter

namespace Generator

-- The text of the first line after the two slashes.
def headerText : List Char :=
  generatedHeader.toList.drop 2

theorem toList_bodyOf (a : Adapter) :
    (bodyOf a).toList =
      '/' :: '/' :: headerText ++ '\n' :: (Tree.render a.tokens ++ ['\n']) := by
  have hheader : generatedHeader.toList = '/' :: '/' :: headerText := by decide
  simp [bodyOf, hheader, Tree.text]

theorem not_mem_headerText : '\n' ∉ headerText := by
  decide

theorem isDocLine_headerText (more : List Char) : Lexer.isDocLine (headerText ++ more) = false := by
  obtain ⟨rest, hrest⟩ : ∃ rest, headerText = ' ' :: rest := ⟨_, rfl⟩
  rw [hrest]
  rfl

end Generator

namespace Adapter

-- The text of an adapter is read, whatever arguments the path of the runtime has.
theorem Named.exists_read? {a : Adapter} (h : a.Named) (hruntime : Legible a.runtime.tokens) :
    ∃ found, Tree.read? (Generator.bodyOf a).toList = some found ∧
      bare found = retold a.tokens := by
  rw [Generator.toList_bodyOf]
  exact (h.tokens.legible hruntime).exists_read? Generator.not_mem_headerText
    Generator.isDocLine_headerText

end Adapter

end Lifecycle
