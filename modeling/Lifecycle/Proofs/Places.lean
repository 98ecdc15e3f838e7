import Lifecycle.Adapter.Code
import Lifecycle.Proofs.Grammar.Parsing
import Lifecycle.Proofs.Names

namespace Lifecycle

open Text Lifecycle.Tree

@[simp] theorem Tree.bare_nil : bare [] = [] := by
  simp [bare]

theorem Tree.bare_flatMap {α : Type} (f : α → List Tree) (items : List α) :
    bare (items.flatMap f) = items.flatMap fun x => bare (f x) := by
  induction items with
  | nil => simp
  | cons x items ih => simp [bare_append, ih]

namespace Code

variable (name : String) (c d : Char) (body : List Tree)

@[simp] theorem bare_word : bare (word name) = word name := by
  simp [word, Tree.word, bare]

@[simp] theorem bare_op1 : bare (op1 c) = op1 c := by
  simp [op1, Tree.operator, bare]

@[simp] theorem bare_op2 : bare (op2 c d) = op2 c d := by
  simp [op2, Tree.operator, bare]

@[simp] theorem bare_colons : bare colons = colons :=
  bare_op2 ':' ':'

@[simp] theorem bare_lifetime : bare (lifetime name) = lifetime name := by
  simp [lifetime, bare]

@[simp] theorem bare_quoted : bare (quoted name) = quoted name := by
  simp [quoted, bare]

@[simp] theorem bare_angled : bare (angled name) = angled name := by
  simp [angled, bare_append]

@[simp] theorem bare_parens : bare (parens body) = parens (bare body) := by
  simp [parens, Tree.grouped, bare]

@[simp] theorem bare_brackets : bare (brackets body) = brackets (bare body) := by
  simp [brackets, Tree.grouped, bare]

@[simp] theorem bare_braces : bare (braces body) = braces (bare body) := by
  simp [braces, Tree.grouped, bare]

@[simp] theorem bare_joined (names : List String) : bare (joined names) = joined names := by
  induction names using joined.induct with
  | case1 => simp [joined]
  | case2 => simp [joined]
  | case3 name rest hrest ih => simp [joined, bare_append, ih]

@[simp] theorem bare_discard : bare (discard name) = discard name := by
  simp [discard, bare_append]

end Code

namespace Call

@[simp] theorem bare_statement (c : Call) : bare c.statement = c.statement := by
  have hcallee : bare c.callee.tokens = c.callee.tokens := by
    cases c.callee <;> simp [Callee.tokens, bare_append]
  have harguments : bare c.kind.arguments = c.kind.arguments := by
    cases c.kind <;> simp [CallKind.arguments, bare_append]
  cases hresult : c.hasResult <;> simp [statement, hresult, bare_append, hcallee, harguments]

end Call

section Runtime

variable {runtime other : Path} (h : bare runtime.tokens = other.tokens)

include h

theorem Call.bare_tokens (c : Call) : bare (c.tokens runtime) = c.tokens other := by
  cases hkey : c.key with
  | none => simp [tokens, hkey]
  | some key => simp [tokens, hkey, bare_append, question, h]

theorem Call.bare_listTokens (calls : List Call) :
    bare (listTokens runtime calls) = listTokens other calls := by
  rw [listTokens, bare_flatMap, funext (Call.bare_tokens h), listTokens]

end Runtime

namespace Adapter

-- The adapter that finds its runtime by another path.
def withRuntime (a : Adapter) (runtime : Path) : Adapter := { a with runtime }

variable {a : Adapter} {other : Path}

@[simp] theorem name_withRuntime : (a.withRuntime other).name = a.name := rfl

@[simp] theorem subject_withRuntime : (a.withRuntime other).subject = a.subject := rfl

@[simp] theorem doc_withRuntime : (a.withRuntime other).doc = a.doc := rfl

@[simp] theorem runtime_withRuntime : (a.withRuntime other).runtime = other := rfl

@[simp] theorem asksLog_withRuntime : (a.withRuntime other).asksLog = a.asksLog := rfl

@[simp] theorem arms_withRuntime : (a.withRuntime other).arms = a.arms := rfl

@[simp] theorem always_withRuntime : (a.withRuntime other).always = a.always := rfl

@[simp] theorem usesOwner_withRuntime : (a.withRuntime other).usesOwner = a.usesOwner := rfl

@[simp] theorem usesEvent_withRuntime : (a.withRuntime other).usesEvent = a.usesEvent := rfl

theorem Named.withRuntime (h : a.Named) (other : Path) : (a.withRuntime other).Named :=
  ⟨h.name, h.subject, h.arms, h.always⟩

section Bare

variable (h : bare a.runtime.tokens = other.tokens)

include h

theorem bare_runtimeName (name : String) :
    bare (a.runtimeName name) = (a.withRuntime other).runtimeName name := by
  simp [runtimeName, bare_append, h]

theorem bare_matchTokens : bare a.matchTokens = (a.withRuntime other).matchTokens := by
  have harm : ∀ event calls, bare (a.armTokens event calls) =
      (a.withRuntime other).armTokens event calls := by
    simp [armTokens, bare_append, bare_runtimeName h, Call.bare_listTokens h]
  cases harms : a.arms.isEmpty <;>
    simp [matchTokens, harms, bare_append, bare_flatMap, harm]

theorem bare_bodyTokens : bare a.bodyTokens = (a.withRuntime other).bodyTokens := by
  have hdiscard : ∀ (used : Bool) name, bare (if used then [] else Code.discard name) =
      if used then [] else Code.discard name := by
    intro used name
    cases used <;> simp
  simp only [bodyTokens, bare_append, hdiscard, bare_matchTokens h, Call.bare_listTokens h]
  rfl

theorem bare_parameters : bare a.parameters = (a.withRuntime other).parameters := by
  obtain hlog | hlog := Bool.eq_false_or_eq_true a.asksLog <;> unfold parameters <;>
    simp only [bare_append, Code.bare_op1, Code.bare_word, Code.bare_colons, Code.bare_joined,
      bare_runtimeName h, asksLog_withRuntime, hlog]
  · simp only [if_true, Code.bare_word]
  · simp only [Bool.false_eq_true, if_false, bare_nil]

omit h in
theorem bare_structTokens : bare a.structTokens = (a.withRuntime other).structTokens := by
  simp [structTokens, bare_append]

theorem bare_dispatchTokens : bare a.dispatchTokens = (a.withRuntime other).dispatchTokens := by
  simp [dispatchTokens, bare_append, bare_runtimeName h, bare_parameters h, bare_bodyTokens h]

theorem bare_observerTokens : bare a.observerTokens = (a.withRuntime other).observerTokens := by
  simp [observerTokens, bare_append, bare_runtimeName h]

-- The code of an adapter without places is that of one whose runtime path has none.
theorem bare_tokens : bare a.tokens = (a.withRuntime other).tokens := by
  rw [tokens, bare_append, bare_append, bare_structTokens, bare_dispatchTokens h,
    bare_observerTokens h, tokens]

end Bare

end Adapter

end Lifecycle
