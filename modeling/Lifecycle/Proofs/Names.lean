import Lifecycle.Proofs.Adapter
import Lifecycle.Proofs.Grammar.Keeping.Statements
import Lifecycle.Proofs.Token.Lexed

namespace Lifecycle

open Text Lifecycle.Tree Lifecycle.Parser

-- Whether a text is an identifier, raw or not, and no keyword.
def IsIdentifier (name : String) : Prop :=
  IsName name.toList ∧ name ∉ keywords

theorem Tree.Legible.isName {name : Ident} {rest : List Tree} (h : Legible (.ident name :: rest)) :
    IsName name.text.toList := by
  cases h with
  | ident hname _ => exact hname

-- What is read as an identifier is one.
theorem isIdentifier_of_ident {c c' : Cursor} {name : Ident} (h : Legible c.trees)
    (hrun : Parser.ident.run c = .ok (name, c')) : IsIdentifier name.text := by
  refine ⟨((triple_iff.1 (ident_spec c) _ _ hrun).2 h).isName, ?_⟩
  simp only [Parser.ident, get_bind_run] at hrun
  split at hrun
  · rename_i found rest htrees
    split at hrun
    · cases hrun
    · rename_i hkeyword
      obtain ⟨rfl, -⟩ := pure_run_eq_ok_iff.1 hrun
      simpa using hkeyword
  · cases hrun

theorem isIdentifier_of_identifier {text name : String} (h : identifier text = .ok name) :
    IsIdentifier name := by
  unfold identifier at h
  split at h
  · rename_i found hfound
    obtain rfl := Except.ok.inj h
    unfold Parser.text at hfound
    split at hfound
    · rename_i trees htrees
      obtain ⟨c, hrun, -⟩ := all_eq_ok hfound
      exact isIdentifier_of_ident (Tree.legible_of_read? htrees) hrun
    · cases hfound
  · cases h

-- Membership in a list that is written out.
class Listed {α : Type} (a : α) (l : List α) : Prop where
  mem : a ∈ l

instance Listed.head {α : Type} {a : α} {l : List α} : Listed a (a :: l) :=
  ⟨List.mem_cons_self⟩

instance Listed.tail {α : Type} {a b : α} {l : List α} [h : Listed a l] : Listed a (b :: l) :=
  ⟨List.mem_cons_of_mem b h.mem⟩

-- The words that the generator writes itself.
abbrev ownWords : List String :=
  ["Adapter", "CallKind", "GeneratedAdapter", "LifecycleEvent", "LifecycleObserver",
    "LifecycleOwner", "MethodCallsLogger", "Option", "Self", "_", "approve_call", "as_deref_mut",
    "call_methods", "core", "crate", "doc", "dyn", "event", "fn", "for", "if", "impl", "is_none_or",
    "let", "lifecycle_adapter", "logger", "match", "mut", "option", "owner", "pub", "r", "receiver",
    "self", "struct", "type", "where"]

-- The operator characters that it writes.
abbrev ownSigns : List Char :=
  ['#', '&', ',', '-', '.', ':', ';', '<', '=', '>', '|']

theorem isName_of_mem_ownWords : ∀ name ∈ ownWords, IsName name.toList := by
  have hall : ownWords.all (fun name => isIdentifier name.toList) = true := by decide +kernel
  exact fun name h => .inl (List.all_eq_true.1 hall name h)

theorem ownSigns_operator :
    ∀ c ∈ ownSigns, c ∈ Lexer.operatorChars ∧ c ≠ '\x27' ∧ c ≠ '/' := by
  have hall : ownSigns.all
      (fun c => decide (c ∈ Lexer.operatorChars ∧ c ≠ '\x27' ∧ c ≠ '/')) = true := by
    decide +kernel
  exact fun c h => of_decide_eq_true (List.all_eq_true.1 hall c h)

theorem exists_run_of_runtimePath {text : String} {p : Path} (h : runtimePath text = .ok p) :
    ∃ g : Level, ∃ _ : g.Keeps, ∃ c c', Legible c.trees ∧
      (Grammar.path g false).run c = .ok (p, c') := by
  unfold runtimePath at h
  split at h
  · rename_i path hpath
    obtain rfl := Except.ok.inj h
    unfold Grammar.parseText at hpath
    split at hpath
    · rename_i trees htrees
      obtain ⟨c, hrun, -⟩ := all_eq_ok hpath
      exact ⟨_, inferInstance, _, c, Tree.legible_of_read? htrees, hrun⟩
    · cases hpath
  · cases h

-- Whatever its arguments are, it can be written.
theorem legible_of_runtimePath {text : String} {p : Path} (h : runtimePath text = .ok p) :
    Legible p.tokens := by
  obtain ⟨g, _, c, c', hc, hrun⟩ := exists_run_of_runtimePath h
  exact ((triple_iff.1 (Grammar.path_spec false c) _ _ hrun).2 hc).tokens

theorem leading_of_path {g : Level} {inExpr : Bool} {c c' : Cursor} {p : Path}
    (h : (Grammar.path g inExpr).run c = .ok (p, c')) :
    p.leading = [] ∨ ∃ pos, p.leading = Tree.operator pos [':', ':'] := by
  obtain ⟨leading, c₁, hleading, h⟩ := bind_run_eq_ok_iff.1 h
  obtain ⟨first, c₂, -, h⟩ := bind_run_eq_ok_iff.1 h
  obtain ⟨rest, c₃, -, h⟩ := bind_run_eq_ok_iff.1 h
  obtain ⟨rfl, -⟩ := pure_run_eq_ok_iff.1 h
  obtain ⟨-, hop⟩ | ⟨-, hnone⟩ := peek_ite_run_eq_ok hleading
  · simp only [op, get_bind_run] at hop
    split at hop
    · simp only [set_bind_run] at hop
      exact .inr ⟨_, (pure_run_eq_ok_iff.1 hop).1⟩
    · cases hop
  · exact .inl (pure_run_eq_ok_iff.1 hnone).1

theorem neat_colons (pos : Position) : Neat (Tree.operator pos [':', ':']) :=
  .joint (by decide) (by decide) (by decide) (.alone (by decide) (by decide) .nil)

theorem Segment.tokens_of_isNone {s : Segment} (h : s.arguments.isNone = true) :
    s.tokens = [.ident s.name] := by
  have hnone : s.arguments.tokens = [] := by
    cases harguments : s.arguments with
    | none => rfl
    | angle _ _ _ _ => simp [harguments, Arguments.isNone] at h
    | paren _ => simp [harguments, Arguments.isNone] at h
  rw [Segment.tokens, hnone]

theorem Segment.Kept.neat {s : Segment} (h : s.Kept) (hplain : s.arguments.isNone = true) :
    Neat s.tokens := by
  rw [Segment.tokens_of_isNone hplain]
  exact .ident h.1.isName .nil

-- Without arguments it has only names and colons.
theorem mem_tokens_of_runtimePath {text : String} {p : Path} (h : runtimePath text = .ok p)
    (hplain : p.isPlain = true) {t : Tree} (ht : t ∈ p.tokens) :
    (∃ name, t = .ident name) ∨ ∃ joint pos, t = .punct ':' joint pos := by
  have hcolons : ∀ pos, t ∈ Tree.operator pos [':', ':'] → ∃ joint pos, t = .punct ':' joint pos := by
    intro pos ht
    simp only [Tree.operator, List.mem_cons, List.not_mem_nil, or_false] at ht
    obtain rfl | rfl := ht <;> exact ⟨_, _, rfl⟩
  have hname : ∀ s ∈ p.segments, t ∈ s.tokens → ∃ name, t = .ident name := by
    intro s hs ht
    rw [Segment.tokens_of_isNone (List.all_eq_true.1 hplain s hs)] at ht
    exact ⟨_, List.mem_singleton.1 ht⟩
  simp only [Path.tokens, List.mem_append, List.mem_flatMap] at ht
  obtain (hleading | hfirst) | ⟨s, hs, hseparator | hrest⟩ := ht
  · obtain ⟨g, _, c, c', -, hrun⟩ := exists_run_of_runtimePath h
    obtain hnil | ⟨pos, heq⟩ := leading_of_path hrun
    · simp [hnil] at hleading
    · exact .inr (hcolons pos (heq ▸ hleading))
  · exact .inl (hname p.first List.mem_cons_self hfirst)
  · exact .inr (hcolons _ hseparator)
  · exact .inl (hname s (List.mem_cons_of_mem _ hs) hrest)

-- Without arguments it is read as it is written.
theorem neat_of_runtimePath {text : String} {p : Path} (h : runtimePath text = .ok p)
    (hplain : p.isPlain = true) : Neat p.tokens := by
  obtain ⟨g, _, c, c', hc, hrun⟩ := exists_run_of_runtimePath h
  obtain ⟨-, hsegments⟩ := (triple_iff.1 (Grammar.path_spec false c) _ _ hrun).2 hc
  have hneat : ∀ s ∈ p.segments, Neat s.tokens := fun s hs =>
    (hsegments s hs).neat (List.all_eq_true.1 hplain s hs)
  obtain ⟨hfirst, hrest⟩ := List.forall_mem_cons.1 hneat
  have hleading : Neat p.leading := by
    obtain hnil | ⟨pos, hcolons⟩ := leading_of_path hrun
    · exact hnil ▸ .nil
    · exact hcolons ▸ neat_colons pos
  refine (hleading.append hfirst).append ?_
  generalize p.rest = rest at hrest
  induction rest with
  | nil => exact .nil
  | cons s rest ih =>
    obtain ⟨hs, hrest⟩ := List.forall_mem_cons.1 hrest
    exact ((neat_colons _).append hs).append (ih hrest)

-- Whether a call goes to a class by identifiers, perhaps from the root on.
def Callee.Named : Callee → Prop
  | .receiver => True
  | .path segments => ∃ name, ∃ modules : List String,
      IsIdentifier name ∧ (∀ m ∈ modules, IsIdentifier m) ∧
        (segments = [name] ∧ modules = [] ∨ segments = "crate" :: modules ++ [name])

structure Call.Named (c : Call) : Prop where
  callee : c.callee.Named
  method : IsIdentifier c.method

structure Adapter.Named (a : Adapter) : Prop where
  name : IsIdentifier a.name
  subject : IsIdentifier a.subject
  arms : ∀ arm ∈ a.arms, ∀ c ∈ arm.2, c.Named
  always : ∀ c ∈ a.always, c.Named

namespace Generator

open Fallible

theorem named_of_callee {c : Callback} {callee : Callee} (h : Generator.callee c = .ok callee) :
    callee.Named := by
  unfold Generator.callee at h
  split at h
  · obtain ⟨segments, hsegments, hpure⟩ := bind_eq_ok_iff.1 h
    obtain rfl := Except.ok.inj hpure
    obtain ⟨name, hname, hpath⟩ := bind_eq_ok_iff.1 hsegments
    have hidentifier := isIdentifier_of_identifier hname
    split at hpath
    · obtain rfl := Except.ok.inj hpath
      exact ⟨name, [], hidentifier, by simp, .inl ⟨rfl, rfl⟩⟩
    · obtain ⟨modules, hmodules, hpure⟩ := bind_eq_ok_iff.1 hpath
      obtain rfl := Except.ok.inj hpure
      refine ⟨name, modules, hidentifier, fun m hm => ?_, .inr rfl⟩
      obtain ⟨text, htext⟩ := exists_of_mapM_eq_ok hmodules m hm
      exact isIdentifier_of_identifier htext
  · obtain rfl := Except.ok.inj h
    trivial

-- Calls that are made of callbacks.
theorem named_of_calls {g : Generator} {callbacks : List Callback} {calls : List Call}
    (h : List.Forall₂ (fun c k => g.call c = .ok k) callbacks calls) : ∀ k ∈ calls, k.Named := by
  intro k hk
  obtain ⟨c, hcall⟩ := exists_of_mapM_eq_ok (mapM_eq_ok_iff.2 h) k hk
  obtain ⟨hmethod, hcallee, -⟩ := call_eq_ok_iff.1 hcall
  exact ⟨named_of_callee hcallee, isIdentifier_of_identifier hmethod⟩

theorem named_of_adapter {g : Generator} {e : Entry} {a : Adapter} (h : g.adapter e = .ok a) :
    a.Named := by
  obtain ⟨-, hname, hsubject, harms, halways, -⟩ := adapter_eq_ok_iff.1 h
  refine ⟨isIdentifier_of_identifier hname, isIdentifier_of_identifier hsubject,
    fun arm harm => ?_, named_of_calls (mapM_eq_ok_iff.1 halways)⟩
  obtain ⟨event, hevent⟩ := exists_of_mapM_eq_ok harms arm harm
  exact named_of_calls (arm_eq_ok_iff.1 hevent).2

end Generator

end Lifecycle
