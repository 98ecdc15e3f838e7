import Lifecycle.Proofs.Refusals
import Lifecycle.Proofs.Unambiguous

namespace Lifecycle

open Text Code

namespace Tree

-- What may stand behind a word: a semicolon only if the word is one of some, and another word only
-- if the two are one of some pairs.
def Beside (ended : List String) (paired : List (String × String)) (t u : Tree) : Prop :=
  ∀ w, t = word w → (op1 ';' = [u] → w ∈ ended) ∧ ∀ v, u = word v → (w, v) ∈ paired

-- Trees of which each two neighbours stand like this. They do not end in a word, so that anything can
-- follow them.
structure Settled (ended : List String) (paired : List (String × String)) (trees : List Tree) :
    Prop where
  chain : trees.IsChain (Beside ended paired)
  last : ∀ t ∈ trees.getLast?, ∀ w, t ≠ word w

namespace Settled

variable {ended : List String} {paired : List (String × String)} {trees more : List Tree}

theorem nil : Settled ended paired [] :=
  ⟨.nil, by simp⟩

theorem append (h : Settled ended paired trees) (hmore : Settled ended paired more) :
    Settled ended paired (trees ++ more) := by
  refine ⟨List.isChain_append.2 ⟨h.chain, hmore.chain, ?_⟩, ?_⟩
  · intro t ht u _ w hw
    exact absurd hw (h.last t ht w)
  · intro t ht
    rw [List.getLast?_append, Option.mem_def, Option.or_eq_some_iff] at ht
    exact ht.elim (hmore.last t) fun h' => h.last t h'.2

theorem flatMap {α : Type} {f : α → List Tree} {items : List α}
    (h : ∀ i ∈ items, Settled ended paired (f i)) : Settled ended paired (items.flatMap f) := by
  induction items with
  | nil => exact nil
  | cons i rest ih =>
    obtain ⟨hi, hrest⟩ := List.forall_mem_cons.1 h
    exact hi.append (ih hrest)

theorem single {t : Tree} (h : ∀ w, t ≠ .word w) : Settled ended paired [t] :=
  ⟨.singleton t, by simpa using h⟩

theorem sign (c : Char) : Settled ended paired (op1 c) :=
  single fun _ => Tree.noConfusion

theorem colons : Settled ended paired colons :=
  (single fun _ => Tree.noConfusion).append (sign ':')

theorem grouped (d : Delimiter) (body : List Tree) : Settled ended paired [.grouped d body] :=
  single fun _ => Tree.noConfusion

-- A word in front of something.
theorem word_cons {w : String} {t : Tree} (hbeside : Beside ended paired (.word w) t)
    (h : Settled ended paired (t :: more)) : Settled ended paired (Code.word w ++ t :: more) :=
  ⟨List.isChain_cons_cons.2 ⟨hbeside, h.chain⟩, by simpa [Code.word] using h.last⟩

theorem word_sign (w : String) {c : Char} (hc : c ≠ ';') :
    Settled ended paired (Code.word w ++ op1 c) := by
  refine word_cons (fun _ _ => ⟨fun hend => ?_, fun _ => Tree.noConfusion⟩) (sign c)
  exact absurd (by simpa [op1, Tree.operator] using hend.symm) hc

theorem word_colons (w : String) : Settled ended paired (Code.word w ++ Code.colons) :=
  word_cons (fun _ _ => ⟨by simp [op1, Tree.operator], fun _ => Tree.noConfusion⟩) colons

theorem word_grouped (w : String) (d : Delimiter) (body : List Tree) :
    Settled ended paired (Code.word w ++ [.grouped d body]) :=
  word_cons (fun _ _ => ⟨by simp [op1, Tree.operator, Tree.grouped], fun _ => Tree.noConfusion⟩)
    (grouped d body)

theorem word_word {w v : String} (hpair : (w, v) ∈ paired)
    (h : Settled ended paired (Code.word v ++ more)) :
    Settled ended paired (Code.word w ++ (Code.word v ++ more)) := by
  refine word_cons (fun w' hw => ⟨by simp [op1, Tree.operator, Tree.word], fun v' hv => ?_⟩) h
  obtain rfl : w = w' := by simpa [Tree.word] using hw
  obtain rfl : v = v' := by simpa [Tree.word] using hv
  exact hpair

-- The start of a statement whose value is thrown away.
theorem thrownAway (hlet : ("let", "_") ∈ paired) :
    Settled ended paired (Code.word "let" ++ Code.word "_" ++ op1 '=') :=
  word_word hlet (word_sign "_" (by decide))

end Settled

-- What stands between the braces of some trees, those inside of other braces included.
def braced : List Tree → List (List Tree)
  | [] => []
  | .group .brace body _ _ :: rest => body :: (braced body ++ braced rest)
  | _ :: rest => braced rest

@[simp] theorem braced_append (trees more : List Tree) :
    braced (trees ++ more) = braced trees ++ braced more := by
  induction trees using braced.induct <;> simp_all [braced]

theorem braced_flatMap {α : Type} (f : α → List Tree) (items : List α) :
    braced (items.flatMap f) = items.flatMap fun i => braced (f i) := by
  induction items with
  | nil => simp [braced]
  | cons i rest ih => simp [ih]

@[simp] theorem braced_word (name : String) : braced (Code.word name) = [] := by
  simp [braced, Code.word, Tree.word]

@[simp] theorem braced_op1 (c : Char) : braced (op1 c) = [] := by
  simp [braced, op1, Tree.operator]

@[simp] theorem braced_op2 (c d : Char) : braced (op2 c d) = [] := by
  simp [braced, op2, Tree.operator]

@[simp] theorem braced_parens (body : List Tree) : braced (parens body) = [] := by
  simp [braced, parens, Tree.grouped]

@[simp] theorem braced_braces (body : List Tree) : braced (braces body) = body :: braced body := by
  simp [braced, braces, Tree.grouped]

-- A path without arguments has no braces.
theorem braced_of_runtimePath {text : String} {p : Path} (h : runtimePath text = .ok p)
    (hplain : p.isPlain = true) : braced p.tokens = [] := by
  have hmem : ∀ t ∈ p.tokens, (∃ name, t = .ident name) ∨ ∃ joint pos, t = .punct ':' joint pos :=
    fun t ht => mem_tokens_of_runtimePath h hplain ht
  generalize p.tokens = tokens at hmem ⊢
  induction tokens with
  | nil => simp [braced]
  | cons t rest ih =>
    obtain ⟨ht, hrest⟩ := List.forall_mem_cons.1 hmem
    obtain ⟨name, rfl⟩ | ⟨joint, pos, rfl⟩ := ht <;> simpa [braced] using ih hrest

end Tree

section Calls

open Lifecycle.Tree

variable {ended : List String} {paired : List (String × String)}

theorem Callee.settled_tokens (callee : Callee) : Settled ended paired callee.tokens := by
  cases callee with
  | receiver =>
    exact (Settled.word_sign "self" (by decide)).append (.word_sign "receiver" (by decide))
  | path segments =>
    rw [tokens]
    induction segments with
    | nil => exact .colons
    | cons name rest ih =>
      rw [joined_cons]
      split
      · simpa using Settled.word_colons name
      · simpa using (Settled.word_colons name).append ih

@[simp] theorem Callee.braced_tokens (callee : Callee) : braced callee.tokens = [] := by
  have hjoined : ∀ names, braced (joined names) = [] := by
    intro names
    induction names using joined.induct <;> simp_all [joined, braced, Code.colons]
  cases callee <;> simp [tokens, hjoined, Code.colons]

namespace Call

@[simp] theorem braced_statement (c : Call) : braced c.statement = [] := by
  cases hresult : c.hasResult <;> simp [statement, hresult]

-- Only a question to the log puts a call in braces.
theorem braced_tokens (runtime : Path) (c : Call) :
    braced (c.tokens runtime) = if c.key.isSome then [c.statement] else [] := by
  cases hkey : c.key <;> simp [tokens, hkey, question]

theorem braced_listTokens (runtime : Path) (calls : List Call) :
    braced (listTokens runtime calls) = (calls.filter (·.key.isSome)).map (·.statement) := by
  rw [listTokens, braced_flatMap]
  induction calls with
  | nil => rfl
  | cons c rest ih =>
    rw [List.flatMap_cons, ih, braced_tokens]
    by_cases hkey : c.key.isSome = true <;> simp [hkey]

-- A result that is thrown away has no name, and behind the call there is a group.
theorem settled_statement (c : Call) (hlet : ("let", "_") ∈ paired) :
    Settled ended paired c.statement := by
  have hresult : Settled ended paired
      (if c.hasResult then Code.word "let" ++ Code.word "_" ++ op1 '=' else []) := by
    split
    · exact .thrownAway hlet
    · exact .nil
  have hcall : Settled ended paired (Code.word c.method ++ parens c.kind.arguments ++ op1 ';') :=
    (Settled.word_grouped c.method .paren _).append (.sign ';')
  simpa [statement] using (hresult.append c.callee.settled_tokens).append hcall

theorem settled_tokens (runtime : Path) (c : Call) (hlet : ("let", "_") ∈ paired)
    (hif : c.key ≠ none → ("if", "logger") ∈ paired) : Settled ended paired (c.tokens runtime) := by
  cases hkey : c.key with
  | none =>
    rw [tokens, hkey]
    exact c.settled_statement hlet
  | some key =>
    have hpair := hif (by simp [hkey])
    have hlogger : Settled ended paired (Code.word "if" ++ (Code.word "logger" ++ op1 '.')) :=
      .word_word hpair (.word_sign "logger" (by decide))
    have hquestion : Settled ended paired (Code.word "if" ++ question runtime key c.kind) :=
      ((hlogger.append (.word_grouped "as_deref_mut" .paren _)).append (.sign '.')).append
        (.word_grouped "is_none_or" .paren _)
    rw [tokens, hkey]
    exact hquestion.append (.grouped .brace _)

end Call

end Calls

namespace Adapter

open Lifecycle.Tree

-- Every sequence of statements in the function: its body, the arms of the choice, and the calls that
-- stand behind a question to the log.
def blocks (a : Adapter) : List (List Tree) :=
  a.bodyTokens :: a.arms.map (fun arm => Call.listTokens a.runtime arm.2) ++
    (a.allCalls.filter (·.key.isSome)).map (·.statement)

-- The arms of the choice by event.
def choices (a : Adapter) : List Tree :=
  a.arms.flatMap (fun (event, calls) => a.armTokens event calls) ++
    Code.word "_" ++ op2 '=' '>' ++ braces []

theorem matchTokens_eq (a : Adapter) :
    a.matchTokens =
      if a.arms.isEmpty then [] else Code.word "match" ++ Code.word "event" ++ braces a.choices :=
  rfl

theorem braced_choices {a : Adapter} (hpath : braced a.runtime.tokens = []) :
    braced a.choices =
      a.arms.flatMap (fun arm => Call.listTokens a.runtime arm.2 ::
        (arm.2.filter (·.key.isSome)).map (·.statement)) ++ [[]] := by
  have harm : ∀ arm : Event × List Call, braced (a.armTokens arm.1 arm.2) =
      Call.listTokens a.runtime arm.2 :: (arm.2.filter (·.key.isSome)).map (·.statement) :=
    fun arm => by simp [armTokens, runtimeName, hpath, Code.colons, Call.braced_listTokens]
  simp [choices, braced_flatMap, harm, braced]

theorem mem_flatMap_cons_iff {α β : Type} {f : α → β} {g : α → List β} {items : List α} {b : β} :
    b ∈ items.flatMap (fun i => f i :: g i) ↔ b ∈ items.map f ∨ b ∈ items.flatMap g := by
  induction items with
  | nil => simp
  | cons i rest ih =>
    simp only [List.flatMap_cons, List.map_cons, List.mem_append, List.mem_cons, ih]
    tauto

-- The sequences of statements are the function's body and what stands between its braces, beside the
-- arms of the choice by event and its last arm, which is empty.
theorem mem_blocks_or_iff {a : Adapter} (hpath : braced a.runtime.tokens = []) {block : List Tree} :
    block ∈ a.bodyTokens :: braced a.bodyTokens ↔
      block ∈ a.blocks ∨ a.arms ≠ [] ∧ (block = a.choices ∨ block = []) := by
  have hdiscard : ∀ (used : Bool) (name : String),
      braced (if used then [] else Code.discard name) = [] := by
    intro used name
    cases used <;> simp [Code.discard, braced]
  have hbraced : braced a.bodyTokens = (if a.arms.isEmpty then [] else a.choices :: braced a.choices) ++
      (a.always.filter (·.key.isSome)).map (·.statement) := by
    rw [bodyTokens, matchTokens_eq]
    cases a.arms.isEmpty <;> simp [hdiscard, Call.braced_listTokens]
  rw [hbraced, braced_choices hpath]
  cases harms : a.arms with
  | nil => simp [blocks, allCalls, harms]
  | cons arm rest =>
    rw [blocks, allCalls, ← harms, List.filter_append, List.map_append, List.filter_flatMap,
      List.map_flatMap]
    simp only [List.mem_cons, List.mem_append, mem_flatMap_cons_iff, harms, List.isEmpty_cons,
      Bool.false_eq_true, if_false, ne_eq, reduceCtorEq, not_false_eq_true, true_and,
      List.not_mem_nil, or_false]
    tauto

-- The function itself stands between braces of the code.
theorem bodyTokens_mem_braced (a : Adapter) : a.bodyTokens ∈ braced a.tokens := by
  simp [tokens, dispatchTokens]

-- The variables that are thrown away at the start of the function.
def discarded (a : Adapter) : List String :=
  (if a.usesOwner then [] else ["owner"]) ++ (if a.usesEvent then [] else ["event"]) ++
    (if a.asksLog then [] else ["logger"])

-- The words that follow one another in the function.
def paired (a : Adapter) : List (String × String) :=
  ("let", "_") :: ((if a.arms.isEmpty then [] else [("match", "event")]) ++
    (if a.allCalls.any (·.key.isSome) then [("if", "logger")] else []))

theorem mem_parts_iff {a : Adapter} {part : BodyPart} :
    part ∈ a.parts ↔ (∃ name ∈ a.discarded, .discarded name = part) ∨
      (a.arms ≠ [] ∧ .choice a.arms = part) ∨ ∃ c ∈ a.always, .call c = part := by
  have hparts : a.parts = a.discarded.map .discarded ++
      (if a.arms.isEmpty then [] else [BodyPart.choice a.arms]) ++ a.always.map .call := by
    unfold parts discarded
    cases a.usesOwner <;> cases a.usesEvent <;> cases a.asksLog <;> rfl
  rw [hparts, List.mem_append, List.mem_append, List.mem_map, List.mem_map, or_assoc]
  cases a.arms <;> simp [eq_comm]

end Adapter

namespace Generator

open Fallible Registry

theorem mem_blocks_or_iff_of_adapter {text : String} {g : Generator} {e : Entry} {a : Adapter}
    (hpath : runtimePath text = .ok g.runtime) (hplain : g.runtime.isPlain = true)
    (ha : g.adapter e = .ok a) {block : List Tree} :
    block ∈ a.bodyTokens :: Tree.braced a.bodyTokens ↔
      block ∈ a.blocks ∨ a.arms ≠ [] ∧ (block = a.choices ∨ block = []) := by
  obtain ⟨-, -, -, -, -, -, hruntime, -⟩ := adapter_eq_ok_iff.1 ha
  refine Adapter.mem_blocks_or_iff ?_
  rw [hruntime]
  exact Tree.braced_of_runtimePath hpath hplain

end Generator

end Lifecycle
