import Lifecycle.Proofs.Code
import Lifecycle.Proofs.Outcome
import Lifecycle.Proofs.Registrations

namespace Lifecycle

open Text Code Lifecycle.Tree

namespace Tree

-- The trees without their places, and without what is joined to what.
def loose : List Tree → List Tree
  | [] => []
  | .ident name :: rest => .ident { text := name.text } :: loose rest
  | .punct c _ _ :: rest => .punct c false {} :: loose rest
  | .lifetime name _ :: rest => .lifetime name {} :: loose rest
  | .literal text _ :: rest => .literal text {} :: loose rest
  | .group d body _ _ :: rest => .group d (loose body) {} {} :: loose rest

theorem loose_append (trees more : List Tree) : loose (trees ++ more) = loose trees ++ loose more := by
  induction trees using loose.induct <;> simp_all [loose]

theorem loose_retold (trees : List Tree) : loose (retold trees) = loose trees := by
  induction trees using loose.induct <;> simp_all [loose, retold]

theorem loose_flatMap {α : Type} (f : α → List Tree) (items : List α) :
    loose (items.flatMap f) = items.flatMap fun i => loose (f i) := by
  induction items with
  | nil => simp [loose]
  | cons i items ih => simp [loose_append, ih]

end Tree

-- Whether the trees of an item show which item it is, whatever follows them.
def Unambiguous {α : Type} (P : α → Prop) (f : α → List Tree) : Prop :=
  ∀ x y s t, P x → P y → f x ++ s = f y ++ t → x = y ∧ s = t

theorem Unambiguous.eq_of_flatMap_eq {α : Type} {P : α → Prop} {f : α → List Tree}
    (h : Unambiguous P f) (hne : ∀ x, f x ≠ []) {xs ys : List α} (hxs : ∀ x ∈ xs, P x)
    (hys : ∀ y ∈ ys, P y) (heq : xs.flatMap f = ys.flatMap f) : xs = ys := by
  induction xs generalizing ys with
  | nil =>
    cases ys with
    | nil => rfl
    | cons y ys =>
      have hy : f y = [] := (List.append_eq_nil_iff.1 heq.symm).1
      exact absurd hy (hne y)
  | cons x xs ih =>
    cases ys with
    | nil =>
      have hx : f x = [] := (List.append_eq_nil_iff.1 heq).1
      exact absurd hx (hne x)
    | cons y ys =>
      obtain ⟨hx, hxs'⟩ := List.forall_mem_cons.1 hxs
      obtain ⟨hy, hys'⟩ := List.forall_mem_cons.1 hys
      rw [List.flatMap_cons, List.flatMap_cons] at heq
      obtain ⟨rfl, hrest⟩ := h x y _ _ hx hy heq
      rw [ih hxs' hys' hrest]

namespace Code

theorem joined_cons (name : String) (names : List String) :
    joined (name :: names) = word name ++ if names = [] then [] else colons ++ joined names := by
  cases names with
  | nil => simp [joined]
  | cons n names => simp [joined]

-- Names and the one that follows them.
theorem joined_concat {names : List String} (h : names ≠ []) (name : String) :
    joined (names ++ [name]) = joined names ++ colons ++ word name := by
  induction names with
  | nil => exact absurd rfl h
  | cons n names ih =>
    by_cases hnames : names = []
    · simp [hnames, joined]
    · rw [List.cons_append, joined_cons, joined_cons, ih hnames]
      simp [hnames]

-- Names in front of a group.
theorem joined_unambiguous {names more : List String} {body body' s t : List Tree}
    (h : loose (joined names) ++ parens body ++ s = loose (joined more) ++ parens body' ++ t) :
    names = more ∧ body = body' ∧ s = t := by
  induction names generalizing more with
  | nil =>
    cases more with
    | nil => simpa [joined, loose, parens, Tree.grouped] using h
    | cons m more => simp [joined_cons, joined, loose, parens, Tree.grouped, word, Tree.word] at h
  | cons n names ih =>
    cases more with
    | nil => simp [joined_cons, joined, loose, parens, Tree.grouped, word, Tree.word] at h
    | cons m more =>
      rw [joined_cons, joined_cons] at h
      by_cases hnames : names = [] <;> by_cases hmore : more = []
      · subst hnames hmore
        simpa [loose, word, Tree.word, parens, Tree.grouped] using h
      · simp [hnames, hmore, loose, colons, op2, Tree.operator, parens, Tree.grouped, word,
          Tree.word] at h
      · simp [hnames, hmore, loose, colons, op2, Tree.operator, parens, Tree.grouped, word,
          Tree.word] at h
      · have hcons : n = m ∧ loose (joined names) ++ parens body ++ s =
            loose (joined more) ++ parens body' ++ t := by
          simpa [hnames, hmore, loose, colons, op2, Tree.operator, word, Tree.word] using h
        obtain ⟨rfl, hrest⟩ := hcons
        obtain ⟨rfl, hbody⟩ := ih hrest
        exact ⟨rfl, hbody⟩

end Code

namespace Call

-- The part of a statement that names what is called.
def target (c : Call) : List Tree :=
  c.callee.tokens ++ Code.word c.method ++ parens c.kind.arguments ++ op1 ';'

theorem statement_eq (c : Call) :
    c.statement = (if c.hasResult then Code.word "let" ++ Code.word "_" ++ op1 '=' else []) ++
      c.target := by
  simp [statement, target]

-- It starts with a name, and goes on behind it. The name is `self` if the object is called.
theorem Named.exists_target {c : Call} (h : c.Named) :
    ∃ name sign rest, loose c.target = Tree.word name :: .punct sign false {} :: rest ∧ sign ≠ ';' ∧
      name ∉ ["let", "if", "match"] ∧ (name = "self" ↔ c.callee = .receiver) := by
  have hkeywords : ∀ name ∈ ["let", "if", "match", "self"], name ∈ Parser.keywords := by decide
  obtain ⟨hcallee, -⟩ := h
  cases hc : c.callee with
  | receiver =>
    obtain ⟨rest, hrest⟩ : ∃ rest, loose c.target =
        Tree.word "self" :: .punct '.' false {} :: rest := by
      simp [target, hc, Callee.tokens, Code.word, Tree.word, op1, Tree.operator, loose]
    exact ⟨"self", '.', rest, hrest, by decide, by decide, by simp⟩
  | path segments =>
    rw [hc] at hcallee
    obtain ⟨first, rest, rfl, hfirst⟩ : ∃ first rest, segments = first :: rest ∧
        first ∉ ["let", "if", "match", "self"] := by
      obtain ⟨name, modules, hname, -, ⟨rfl, -⟩ | rfl⟩ := hcallee
      · exact ⟨name, [], rfl, fun h => hname.2 (hkeywords _ h)⟩
      · exact ⟨"crate", _, rfl, by decide⟩
    obtain ⟨more, hmore⟩ : ∃ more, loose (joined (first :: rest) ++ colons) =
        Tree.word first :: .punct ':' false {} :: more := by
      rw [joined_cons]
      split <;> simp [colons, op2, Code.word, Tree.word, Tree.operator, loose]
    have hnot : first ∉ ["let", "if", "match"] ∧ first ≠ "self" := by
      simpa [not_or, and_assoc] using hfirst
    have htarget : loose c.target = loose (joined (first :: rest) ++ colons) ++
        loose (Code.word c.method ++ parens c.kind.arguments ++ op1 ';') := by
      rw [← loose_append]
      simp [target, hc, Callee.tokens]
    rw [hmore] at htarget
    exact ⟨first, ':', _, htarget, by decide, hnot.1, by simp [hnot.2]⟩

theorem kind_eq_of_arguments {k l : CallKind} (h : loose k.arguments = loose l.arguments) :
    k = l := by
  cases k <;> cases l <;> simp_all [CallKind.arguments, loose, Code.word, Tree.word, op1, Tree.operator]

-- The name of a callback and what its arguments are, behind the names of a class.
theorem target_of_path {c : Call} {segments : List String} (h : c.callee = .path segments)
    (hne : segments ≠ []) :
    loose c.target = loose (joined (segments ++ [c.method])) ++ parens (loose c.kind.arguments) ++
      op1 ';' := by
  rw [joined_concat hne]
  simp [target, h, Callee.tokens, loose_append, parens, Tree.grouped, loose, op1, Tree.operator]

theorem Named.segments_ne_nil {segments : List String} (h : (Callee.path segments).Named) :
    segments ≠ [] := by
  obtain ⟨name, modules, -, -, hsegments⟩ := h
  rcases hsegments with ⟨rfl, -⟩ | rfl <;> simp

theorem target_unambiguous {c d : Call} (hc : c.Named) (hd : d.Named) {s t : List Tree}
    (h : loose c.target ++ s = loose d.target ++ t) :
    c.callee = d.callee ∧ c.method = d.method ∧ c.kind = d.kind ∧ s = t := by
  obtain ⟨name, sign, rest, htarget, -, -, hname⟩ := hc.exists_target
  obtain ⟨name', sign', rest', htarget', -, -, hname'⟩ := hd.exists_target
  have hself : c.callee = .receiver ↔ d.callee = .receiver := by
    have hhead : name = name' := by
      rw [htarget, htarget'] at h
      simpa [Tree.word] using (List.cons.inj h).1
    rw [← hname, ← hname', hhead]
  cases hcallee : c.callee with
  | receiver =>
    have hcallee' := hself.1 hcallee
    have hparts : c.method = d.method ∧ loose c.kind.arguments = loose d.kind.arguments ∧ s = t := by
      simpa [target, hcallee, hcallee', Callee.tokens, loose, loose_append, Code.word, Tree.word,
        op1, Tree.operator, parens, Tree.grouped] using h
    obtain ⟨hmethod, hkind, hrest⟩ := hparts
    exact ⟨hcallee'.symm, hmethod, kind_eq_of_arguments hkind, hrest⟩
  | path segments =>
    cases hcallee' : d.callee with
    | receiver => simp [hcallee, hcallee'] at hself
    | path segments' =>
      have hne := Named.segments_ne_nil (hcallee ▸ hc.callee)
      have hne' := Named.segments_ne_nil (hcallee' ▸ hd.callee)
      rw [target_of_path hcallee hne, target_of_path hcallee' hne', List.append_assoc _ _ s,
        List.append_assoc _ _ t] at h
      obtain ⟨hnames, hkind, hrest⟩ := joined_unambiguous h
      obtain ⟨rfl, hmethod⟩ := List.append_inj' hnames rfl
      obtain rfl : s = t := List.append_cancel_left hrest
      exact ⟨rfl, by simpa using hmethod, kind_eq_of_arguments hkind, rfl⟩

theorem statement_unambiguous {c d : Call} (hc : c.Named) (hd : d.Named) {s t : List Tree}
    (h : loose c.statement ++ s = loose d.statement ++ t) :
    c.hasResult = d.hasResult ∧ c.callee = d.callee ∧ c.method = d.method ∧ c.kind = d.kind ∧
      s = t := by
  obtain ⟨name, sign, rest, htarget, -, hname, -⟩ := hc.exists_target
  obtain ⟨name', sign', rest', htarget', -, hname', -⟩ := hd.exists_target
  have hlet : name ≠ "let" := fun h => hname (by simp [h])
  have hlet' : name' ≠ "let" := fun h => hname' (by simp [h])
  rw [statement_eq, statement_eq, loose_append, loose_append] at h
  cases hresult : c.hasResult <;> cases hresult' : d.hasResult
  · exact ⟨rfl, target_unambiguous hc hd (by simpa [hresult, hresult', loose] using h)⟩
  · simp [hresult, hresult', htarget, loose, Code.word, Tree.word, hlet] at h
  · simp [hresult, hresult', htarget', loose, Code.word, Tree.word, hlet'.symm] at h
  · exact ⟨rfl, target_unambiguous hc hd (by
      simpa [hresult, hresult', loose, Code.word, Tree.word, op1, Tree.operator] using h)⟩

-- A statement does not start like a question to the log, or like a choice.
theorem Named.exists_statement {c : Call} (h : c.Named) :
    ∃ name rest, loose c.statement = Tree.word name :: rest ∧ name ∉ ["if", "match"] := by
  obtain ⟨name, sign, rest, htarget, -, hname, -⟩ := h.exists_target
  rw [statement_eq, loose_append, htarget]
  cases c.hasResult with
  | false => exact ⟨name, _, by simp [loose]; rfl, fun h => hname (by simp_all)⟩
  | true => exact ⟨"let", _, by simp [loose, Code.word, Tree.word]; rfl, by decide⟩

-- What a call with a key shows of the key and of the statement.
theorem guarded_unambiguous {runtime : Path} {c d : Call} {key key' : String} {s t : List Tree}
    (h : loose (Code.word "if" ++ question runtime key c.kind ++ braces c.statement) ++ s =
      loose (Code.word "if" ++ question runtime key' d.kind ++ braces d.statement) ++ t) :
    key = key' ∧ loose c.statement = loose d.statement ∧ s = t := by
  have hparts : (String.ofList (Quoted.quote key.toList) = String.ofList (Quoted.quote key'.toList) ∧
      c.kind.name = d.kind.name) ∧ loose c.statement = loose d.statement ∧ s = t := by
    simpa [question, loose, loose_append, Code.word, Tree.word, op1, Tree.operator, parens, braces,
      Tree.grouped, quoted] using h
  obtain ⟨⟨hkey, -⟩, hrest⟩ := hparts
  have hquote := congrArg String.toList hkey
  rw [String.toList_ofList, String.toList_ofList] at hquote
  exact ⟨String.toList_injective (Literal.quote_injective hquote), hrest⟩

-- A call with everything around it.
theorem unambiguous (runtime : Path) :
    Unambiguous Call.Named fun c => loose (c.tokens runtime) := by
  intro c d s t hc hd h
  obtain ⟨name, rest, hstatement, hname⟩ := hc.exists_statement
  obtain ⟨name', rest', hstatement', hname'⟩ := hd.exists_statement
  have hif : name ≠ "if" := fun h => hname (by simp [h])
  have hif' : name' ≠ "if" := fun h => hname' (by simp [h])
  obtain ⟨callee, method, kind, hasResult, key⟩ := c
  obtain ⟨callee', method', kind', hasResult', key'⟩ := d
  cases key with
  | none =>
    cases key' with
    | none =>
      obtain ⟨hresult, hcallee, hmethod, hkind, hrest⟩ := statement_unambiguous hc hd h
      simp_all
    | some key' =>
      simp [Call.tokens, hstatement, loose, Code.word, Tree.word, hif] at h
  | some key =>
    cases key' with
    | none => simp [Call.tokens, hstatement', loose, Code.word, Tree.word, hif'.symm] at h
    | some key' =>
      obtain ⟨hkey, hsame, hrest⟩ := guarded_unambiguous h
      obtain ⟨hresult, hcallee, hmethod, hkind, -⟩ :=
        statement_unambiguous hc hd (congrArg (· ++ []) hsame)
      simp_all

theorem loose_tokens_ne_nil (runtime : Path) (c : Call) : loose (c.tokens runtime) ≠ [] := by
  unfold Call.tokens
  split
  · simp [statement, loose, loose_append, parens, Tree.grouped]
  · simp [loose, Code.word, Tree.word]

-- The calls of a list are shown by its code.
theorem listTokens_injective {runtime : Path} {calls more : List Call} (h : ∀ c ∈ calls, c.Named)
    (hmore : ∀ c ∈ more, c.Named)
    (heq : loose (listTokens runtime calls) = loose (listTokens runtime more)) : calls = more := by
  refine (unambiguous runtime).eq_of_flatMap_eq (loose_tokens_ne_nil runtime) h hmore ?_
  rwa [listTokens, listTokens, loose_flatMap, loose_flatMap] at heq

end Call

theorem Event.name_injective : Function.Injective Event.name := by
  intro e f h
  cases e <;> cases f <;> first | rfl | exact absurd h (by decide)

-- What stands in the body of the function that makes the calls.
inductive BodyPart where
  -- A variable that is not used.
  | discarded (name : String)
  -- The choice by event.
  | choice (arms : List (Event × List Call))
  | call (c : Call)

def BodyPart.arms : BodyPart → List (Event × List Call)
  | .choice arms => arms
  | _ => []

def BodyPart.call? : BodyPart → Option Call
  | .call c => some c
  | _ => none

namespace Adapter

variable {a b : Adapter}

-- Whether an adapter can have this in its body.
def Allows : BodyPart → Prop
  | .discarded name => name ∈ ["owner", "event", "logger"]
  | .choice arms => ∀ arm ∈ arms, ∀ c ∈ arm.2, c.Named
  | .call c => c.Named

def partTokens (a : Adapter) : BodyPart → List Tree
  | .discarded name => Code.discard name
  | .choice arms =>
    Code.word "match" ++ Code.word "event" ++
      braces (arms.flatMap (fun (event, calls) => a.armTokens event calls) ++
        Code.word "_" ++ op2 '=' '>' ++ braces [])
  | .call c => c.tokens a.runtime

-- The body part by part.
def parts (a : Adapter) : List BodyPart :=
  (if a.usesOwner then [] else [BodyPart.discarded "owner"]) ++
    (if a.usesEvent then [] else [BodyPart.discarded "event"]) ++
    (if a.asksLog then [] else [BodyPart.discarded "logger"]) ++
    (if a.arms.isEmpty then [] else [BodyPart.choice a.arms]) ++ a.always.map BodyPart.call

theorem bodyTokens_eq (a : Adapter) : a.bodyTokens = a.parts.flatMap a.partTokens := by
  simp only [bodyTokens, matchTokens, parts, List.flatMap_append]
  congr 1
  · congr 1
    · congr 1
      · congr 1 <;> split <;> simp [partTokens]
      · split <;> simp [partTokens]
    · split <;> simp [partTokens]
  · simp [Call.listTokens, List.flatMap_map, partTokens]

theorem Named.allows_parts (h : a.Named) : ∀ part ∈ a.parts, Allows part := by
  intro part hpart
  simp only [parts, List.mem_append, List.mem_map] at hpart
  obtain (((hpart | hpart) | hpart) | hpart) | ⟨c, hc, rfl⟩ := hpart
  · split at hpart <;> simp_all [Allows]
  · split at hpart <;> simp_all [Allows]
  · split at hpart <;> simp_all [Allows]
  · split at hpart
    · simp at hpart
    · obtain rfl := List.mem_singleton.1 hpart
      exact h.arms
  · exact h.always c hc

theorem partTokens_congr (h : a.runtime = b.runtime) : a.partTokens = b.partTokens := by
  funext part
  cases part <;> simp [partTokens, armTokens, runtimeName, h]

theorem arm_unambiguous (a : Adapter) :
    Unambiguous (fun arm : Event × List Call => ∀ c ∈ arm.2, c.Named)
      fun arm => loose (a.armTokens arm.1 arm.2) := by
  rintro ⟨event, calls⟩ ⟨event', calls'⟩ s t hcalls hcalls' h
  have hparts : event.name = event'.name ∧
      loose (Call.listTokens a.runtime calls) = loose (Call.listTokens a.runtime calls') ∧ s = t := by
    simpa [armTokens, runtimeName, loose, loose_append, Code.word, Tree.word, op2, colons,
      Tree.operator, braces, Tree.grouped] using h
  obtain ⟨hevent, hlist, hrest⟩ := hparts
  obtain rfl := Event.name_injective hevent
  obtain rfl := Call.listTokens_injective hcalls hcalls' hlist
  exact ⟨rfl, hrest⟩

theorem choice_injective {arms arms' : List (Event × List Call)}
    (h : ∀ arm ∈ arms, ∀ c ∈ arm.2, c.Named) (h' : ∀ arm ∈ arms', ∀ c ∈ arm.2, c.Named)
    {s t : List Tree}
    (heq : loose (a.partTokens (.choice arms)) ++ s = loose (a.partTokens (.choice arms')) ++ t) :
    arms = arms' ∧ s = t := by
  have hparts : loose (arms.flatMap fun arm => a.armTokens arm.1 arm.2) =
      loose (arms'.flatMap fun arm => a.armTokens arm.1 arm.2) ∧ s = t := by
    simpa [partTokens, loose, loose_append, Code.word, Tree.word, braces, Tree.grouped] using heq
  obtain ⟨harms, hrest⟩ := hparts
  rw [loose_flatMap, loose_flatMap] at harms
  have hne : ∀ arm : Event × List Call, loose (a.armTokens arm.1 arm.2) ≠ [] := fun arm => by
    simp [armTokens, loose, loose_append, braces, Tree.grouped]
  exact ⟨a.arm_unambiguous.eq_of_flatMap_eq hne h h' harms, hrest⟩

theorem discarded_ne_call {c : Call} (hc : c.Named) (name : String) (s t : List Tree) :
    loose (a.partTokens (.discarded name)) ++ s ≠ loose (a.partTokens (.call c)) ++ t := by
  intro h
  obtain ⟨first, sign, rest, htarget, hsign, hfirst, -⟩ := hc.exists_target
  have hlet : first ≠ "let" := fun h => hfirst (by simp [h])
  simp only [partTokens, Call.tokens] at h
  split at h
  · rw [Call.statement_eq, loose_append, htarget] at h
    -- A statement that throws its result away also starts like this, but it goes on behind a name.
    cases hresult : c.hasResult
    · simp [hresult, Code.discard, loose, Code.word, Tree.word, hlet.symm] at h
    · simp [hresult, Code.discard, loose, Code.word, Tree.word, op1, Tree.operator, hsign.symm] at h
  · simp [Code.discard, loose, Code.word, Tree.word] at h

theorem choice_ne_call {c : Call} (hc : c.Named) (arms : List (Event × List Call))
    (s t : List Tree) :
    loose (a.partTokens (.choice arms)) ++ s ≠ loose (a.partTokens (.call c)) ++ t := by
  intro h
  obtain ⟨name, rest, hstatement, hname⟩ := hc.exists_statement
  have hmatch : name ≠ "match" := fun h => hname (by simp [h])
  simp only [partTokens, Call.tokens] at h
  split at h
  · simp [hstatement, loose, Code.word, Tree.word, hmatch.symm] at h
  · simp [loose, Code.word, Tree.word] at h

theorem discarded_ne_choice (name : String) (arms : List (Event × List Call)) (s t : List Tree) :
    loose (a.partTokens (.discarded name)) ++ s ≠ loose (a.partTokens (.choice arms)) ++ t := by
  simp [partTokens, Code.discard, loose, Code.word, Tree.word]

-- Which part it is shows in its first words.
theorem part_unambiguous (a : Adapter) :
    Unambiguous Allows fun part => loose (a.partTokens part) := by
  intro x y s t hx hy h
  cases x with
  | discarded name =>
    cases y with
    | discarded name' =>
      simpa [partTokens, Code.discard, loose, Code.word, Tree.word, op1, Tree.operator] using h
    | choice arms => exact absurd h (discarded_ne_choice name arms s t)
    | call c => exact absurd h (discarded_ne_call hy name s t)
  | choice arms =>
    cases y with
    | discarded name => exact absurd h.symm (discarded_ne_choice name arms t s)
    | choice arms' =>
      obtain ⟨rfl, hrest⟩ := choice_injective hx hy h
      exact ⟨rfl, hrest⟩
    | call c => exact absurd h (choice_ne_call hy arms s t)
  | call c =>
    cases y with
    | discarded name => exact absurd h.symm (discarded_ne_call hx name t s)
    | choice arms => exact absurd h.symm (choice_ne_call hx arms t s)
    | call d =>
      obtain ⟨rfl, hrest⟩ := Call.unambiguous a.runtime c d s t hx hy h
      exact ⟨rfl, hrest⟩

theorem loose_partTokens_ne_nil (a : Adapter) (part : BodyPart) : loose (a.partTokens part) ≠ [] := by
  cases part with
  | discarded name => simp [partTokens, Code.discard, loose, Code.word, Tree.word]
  | choice arms => simp [partTokens, loose, Code.word, Tree.word]
  | call c => exact Call.loose_tokens_ne_nil a.runtime c

-- The arms and the calls after them can be taken from the parts.
theorem flatMap_arms_parts (a : Adapter) : a.parts.flatMap BodyPart.arms = a.arms := by
  have hcalls : (a.always.map BodyPart.call).flatMap BodyPart.arms = [] := by
    simp [List.flatMap_map, BodyPart.arms]
  have hchoice : (if a.arms.isEmpty then [] else [BodyPart.choice a.arms]).flatMap BodyPart.arms =
      a.arms := by
    split <;> simp_all [BodyPart.arms]
  have hdiscarded : ∀ (used : Bool) (name : String),
      (if used then [] else [BodyPart.discarded name]).flatMap BodyPart.arms = [] := by
    intro used name
    cases used <;> rfl
  simp only [parts, List.flatMap_append, hcalls, hchoice, hdiscarded, List.nil_append,
    List.append_nil]

theorem filterMap_call?_parts (a : Adapter) : a.parts.filterMap BodyPart.call? = a.always := by
  have hcalls : (a.always.map BodyPart.call).filterMap BodyPart.call? = a.always := by
    simp [List.filterMap_map, Function.comp_def, BodyPart.call?]
  have hchoice :
      (if a.arms.isEmpty then [] else [BodyPart.choice a.arms]).filterMap BodyPart.call? = [] := by
    split <;> simp [BodyPart.call?]
  have hdiscarded : ∀ (used : Bool) (name : String),
      (if used then [] else [BodyPart.discarded name]).filterMap BodyPart.call? = [] := by
    intro used name
    cases used <;> rfl
  simp only [parts, List.filterMap_append, hcalls, hchoice, hdiscarded, List.nil_append]

theorem bodyTokens_injective (ha : a.Named) (hb : b.Named) (hruntime : a.runtime = b.runtime)
    (h : loose a.bodyTokens = loose b.bodyTokens) : a.arms = b.arms ∧ a.always = b.always := by
  have hparts : a.parts = b.parts := by
    refine a.part_unambiguous.eq_of_flatMap_eq a.loose_partTokens_ne_nil ha.allows_parts
      hb.allows_parts ?_
    rwa [bodyTokens_eq, bodyTokens_eq, ← partTokens_congr hruntime, loose_flatMap,
      loose_flatMap] at h
  exact ⟨by rw [← flatMap_arms_parts, hparts, flatMap_arms_parts],
    by rw [← filterMap_call?_parts, hparts, filterMap_call?_parts]⟩

theorem structTokens_injective {s t : List Tree}
    (h : loose a.structTokens ++ s = loose b.structTokens ++ t) :
    String.ofList (Quoted.quote a.doc.toList) = String.ofList (Quoted.quote b.doc.toList) ∧
      a.name = b.name ∧ a.subject = b.subject ∧ s = t := by
  simpa [structTokens, loose, loose_append, Code.word, Tree.word, op1, Tree.operator, angled,
    Code.lifetime, brackets, braces, Tree.grouped, quoted] using h

theorem dispatchTokens_injective (hruntime : a.runtime = b.runtime) {s t : List Tree}
    (h : loose a.dispatchTokens ++ s = loose b.dispatchTokens ++ t) :
    loose a.bodyTokens = loose b.bodyTokens := by
  have hadapter : a.runtimeName "GeneratedAdapter" = b.runtimeName "GeneratedAdapter" := by
    simp [runtimeName, hruntime]
  have hparts : a.name = b.name ∧
      (loose a.parameters = loose b.parameters ∧ loose a.bodyTokens = loose b.bodyTokens) ∧ s = t := by
    simpa [dispatchTokens, hadapter, loose, loose_append, Code.word, Tree.word, op1, Tree.operator,
      angled, Code.lifetime, parens, braces, Tree.grouped] using h
  exact hparts.2.1.2

-- The code of an adapter says everything that its runtime path and its use of a log do not say.
theorem tokens_injective (ha : a.Named) (hb : b.Named) (hruntime : a.runtime = b.runtime)
    (hlog : a.asksLog = b.asksLog) (h : loose a.tokens = loose b.tokens) : a = b := by
  simp only [tokens, loose_append, List.append_assoc] at h
  obtain ⟨hdoc, hname, hsubject, hrest⟩ := structTokens_injective h
  obtain ⟨harms, halways⟩ :=
    bodyTokens_injective ha hb hruntime (dispatchTokens_injective hruntime hrest)
  have hquote := congrArg String.toList hdoc
  rw [String.toList_ofList, String.toList_ofList] at hquote
  have hdoc' : a.doc = b.doc := String.toList_injective (Literal.quote_injective hquote)
  obtain ⟨name, subject, doc, runtime, asksLog, arms, always⟩ := a
  obtain ⟨name', subject', doc', runtime', asksLog', arms', always'⟩ := b
  simp_all

end Adapter

namespace Generator

theorem runtimePath_of_ofSettings {s : Settings} {g : Generator} (h : ofSettings s = .ok g) :
    runtimePath s.runtimePath = .ok g.runtime := by
  obtain ⟨path, hpath, hpure⟩ := Fallible.bind_eq_ok_iff.1 h
  obtain rfl := Except.ok.inj hpure
  exact hpath

-- Adapters of one generator that have the same text are the same.
theorem adapter_eq_of_bodyOf_eq {s : Settings} {g : Generator} (hg : ofSettings s = .ok g)
    {e e' : Entry} {a a' : Adapter} (ha : g.adapter e = .ok a) (ha' : g.adapter e' = .ok a')
    (h : bodyOf a = bodyOf a') : a = a' := by
  have hlegible := legible_of_runtimePath (runtimePath_of_ofSettings hg)
  obtain ⟨-, -, -, -, -, -, hruntime, hlog⟩ := adapter_eq_ok_iff.1 ha
  obtain ⟨-, -, -, -, -, -, hruntime', hlog'⟩ := adapter_eq_ok_iff.1 ha'
  have hnamed := named_of_adapter ha
  have hnamed' := named_of_adapter ha'
  obtain ⟨found, hfound, hbare⟩ := hnamed.exists_read? (hruntime ▸ hlegible)
  obtain ⟨found', hfound', hbare'⟩ := hnamed'.exists_read? (hruntime' ▸ hlegible)
  have hread : found = found' := by
    rw [h, hfound'] at hfound
    exact (Option.some.inj hfound).symm
  refine Adapter.tokens_injective hnamed hnamed' (hruntime.trans hruntime'.symm)
    (hlog.trans hlog'.symm) ?_
  rw [← loose_retold a.tokens, ← loose_retold a'.tokens, ← hbare, ← hbare', hread]

-- If two source texts of one generator are equal, then their adapters make the same calls for every
-- event, and ask every log the same questions. Each named event has one arm, and no arm stands for
-- any event.
theorem run_eq_of_body_eq {s : Settings} {g : Generator} (hg : ofSettings s = .ok g)
    {subject : ClassPath} {acceptances : List Acceptance} {e e' : Entry}
    (he : (Registry.ofAcceptances subject acceptances).toEntry = some e)
    {u u' : SourceUnit} (hu : g.unit e = .ok u) (hu' : g.unit e' = .ok u')
    (hbody : u.body = u'.body) :
    ∃ a a', g.adapter e = .ok a ∧ u.body = bodyOf a ∧ g.adapter e' = .ok a' ∧ u'.body = bodyOf a' ∧
      (∀ event log, a.run event log = a'.run event log) ∧ a = a' ∧
      a.arms.map (·.1) = e.namedEvents ∧ (a.arms.map (·.1)).Nodup ∧ .onAny ∉ a.arms.map (·.1) := by
  obtain ⟨a, ha, rfl⟩ := unit_eq_ok_iff.1 hu
  obtain ⟨a', ha', rfl⟩ := unit_eq_ok_iff.1 hu'
  obtain rfl := adapter_eq_of_bodyOf_eq hg ha ha' hbody
  obtain ⟨-, -, -, harms, -⟩ := adapter_eq_ok_iff.1 ha
  obtain ⟨-, rfl⟩ := (Registry.toEntry_eq_some_iff _ _).1 he
  have hevents := events_arms harms
  refine ⟨a, a, ha, rfl, ha', rfl, fun _ _ => rfl, rfl, hevents, ?_, ?_⟩
  · rw [hevents]
    exact (Registry.nodup_events_ofAcceptances subject acceptances).filter _
  · rw [hevents]
    simp [Entry.namedEvents, Event.isAny]

-- A class with a callback of some name for two events.
def seenBy (name : String) : Registry :=
  .ofAcceptances { name := "Screen" }
    [.ofCallback { declaringClass := { name := "Screen" }, name, events := [.onStop, .onStart] }]

-- Blanks around the name of a callback are lost, and nothing else is.
theorem run_eq_of_body_eq_seen :
    ∃ g e e' u u', ofSettings { callLogger := false } = .ok g ∧ (seenBy "seen").toEntry = some e ∧
      (seenBy " seen ").toEntry = some e' ∧ g.unit e = .ok u ∧ g.unit e' = .ok u' ∧
      u.body = u'.body ∧ ∃ a a', g.adapter e = .ok a ∧ g.adapter e' = .ok a' ∧
        ∀ event log, a.run event log = a'.run event log := by
  have hcheck : (ofSettings { callLogger := false }).toOption.any (fun g =>
      (seenBy "seen").toEntry.any fun e => (seenBy " seen ").toEntry.any fun e' =>
        (g.adapter e).toOption.any fun a => (g.adapter e').toOption.any fun a' =>
          decide (e.subject = e'.subject ∧ a.arms = a'.arms ∧ a.always = a'.always)) = true := by
    decide +kernel
  obtain ⟨g, hg, e, he, e', he', a, ha, a', ha', hsubject, harms, halways⟩ := by
    simpa only [Option.any_eq_true, decide_eq_true_iff, Fallible.toOption_eq_some_iff] using hcheck
  have hsame : bodyOf a = bodyOf a' := by
    obtain ⟨-, hname, hname', -, -, hdoc, hruntime, hlog⟩ := adapter_eq_ok_iff.1 ha
    rw [hsubject] at hname hname' hdoc
    have hparts := adapter_eq_ok_iff.1 ha'
    rw [hname, hname', Except.ok.injEq, Except.ok.injEq, ← hdoc, ← hruntime, ← hlog] at hparts
    obtain ⟨-, hname, hname', -, -, hdoc, hruntime, hlog⟩ := hparts
    obtain ⟨name, subject, doc, runtime, asksLog, arms, always⟩ := a
    obtain ⟨name', subject', doc', runtime', asksLog', arms', always'⟩ := a'
    simp_all
  have hu := unit_eq_ok_iff.2 ⟨a, ha, rfl⟩
  have hu' := unit_eq_ok_iff.2 ⟨a', ha', rfl⟩
  obtain ⟨b, b', hb, -, hb', -, hrun, -⟩ := run_eq_of_body_eq hg he hu hu' hsame
  exact ⟨g, e, e', _, _, hg, he, he', hu, hu', hsame, b, b', hb, hb', hrun⟩

end Generator

end Lifecycle
