import Lifecycle.Proofs.Grammar.Yields
import Lifecycle.Proofs.Token.Legible
import Lifecycle.Proofs.Token.Written
import Mathlib
/-!
Parsers that keep trees legible: what they make of trees that can be written can be written. A parser
stops behind a tree that needs nothing after it, so that the trees it has read, taken as they are, can
be written as well.

The specifications are triples; the cursor in front of a parser is its only precondition.
-/

namespace Lifecycle

open Std.Do Text Lexer Lifecycle.Tree

set_option mvcgen.warning false

namespace Cursor

-- Whether a cursor stands further on, behind a tree that needs nothing after it.
def Past (c c' : Cursor) : Prop :=
  ∃ used t, c.trees = used ++ t :: c'.trees ∧ IsClosed t

-- Whether a cursor stands further on like this, or at the same place.
def Upto (c c' : Cursor) : Prop :=
  c'.trees = c.trees ∨ c.Past c'

-- Whether a cursor stands further on, whatever is in front of it.
def Along (c c' : Cursor) : Prop :=
  ∃ used, c.trees = used ++ c'.trees

variable {c c' c'' : Cursor}

@[grind →] theorem Past.upto (h : c.Past c') : c.Upto c' :=
  .inr h

theorem Past.along (h : c.Past c') : c.Along c' := by
  obtain ⟨used, t, htrees, -⟩ := h
  exact ⟨used ++ [t], by simp [htrees]⟩

theorem Upto.along (h : c.Upto c') : c.Along c' := by
  obtain h | h := h
  · exact ⟨[], by simp [h]⟩
  · exact h.along

@[grind →] theorem Along.past (h : c.Along c') (h' : c'.Past c'') : c.Past c'' := by
  obtain ⟨used, htrees⟩ := h
  obtain ⟨used', t, htrees', ht⟩ := h'
  exact ⟨used ++ used', t, by simp [htrees, htrees'], ht⟩

@[grind →] theorem Upto.past (h : c.Upto c') (h' : c'.Past c'') : c.Past c'' :=
  h.along.past h'

@[grind →] theorem Past.trans_upto (h : c.Past c') (h' : c'.Upto c'') : c.Past c'' := by
  obtain h' | h' := h'
  · obtain ⟨used, t, htrees, ht⟩ := h
    exact ⟨used, t, by rw [htrees, h'], ht⟩
  · exact h.along.past h'

@[grind →] theorem Upto.trans (h : c.Upto c') (h' : c'.Upto c'') : c.Upto c'' := by
  obtain h | h := h
  · obtain h' | ⟨used, t, htrees, ht⟩ := h'
    · exact .inl (h'.trans h)
    · exact .inr ⟨used, t, by rw [← h, htrees], ht⟩
  · exact .inr (h.trans_upto h')

@[grind .] theorem Upto.refl (c : Cursor) : c.Upto c :=
  .inl rfl

@[grind →] theorem Along.legible (h : c.Along c') (hc : Legible c.trees) : Legible c'.trees := by
  obtain ⟨used, htrees⟩ := h
  exact (htrees ▸ hc).suffix

@[grind →] theorem Upto.legible (h : c.Upto c') (hc : Legible c.trees) : Legible c'.trees :=
  h.along.legible hc

-- What was read between two cursors can be written.
theorem Upto.legible_take (h : c.Upto c') (hc : Legible c.trees) :
    Legible (c.trees.take (c.trees.length - c'.trees.length)) := by
  obtain h | ⟨used, t, htrees, ht⟩ := h
  · simp [h, Legible.nil]
  · rw [htrees] at hc ⊢
    rw [← List.singleton_append, ← List.append_assoc] at hc ⊢
    rw [List.length_append, Nat.add_sub_cancel, List.take_left]
    exact hc.front (by simpa using ht)

end Cursor

namespace Parser

variable {α β : Type}

-- A parser that reads something: where it stops, and a property of its result if what it read can be
-- written.
def Reads (c c' : Cursor) (P : Prop) : Prop :=
  c.Past c' ∧ (Legible c.trees → P)

-- A parser that may also read nothing.
def MayRead (c c' : Cursor) (P : Prop) : Prop :=
  c.Upto c' ∧ (Legible c.trees → P)

@[grind =] theorem reads_iff (c c' : Cursor) (P : Prop) :
    Reads c c' P ↔ c.Past c' ∧ (Legible c.trees → P) :=
  Iff.rfl

@[grind =] theorem mayRead_iff (c c' : Cursor) (P : Prop) :
    MayRead c c' P ↔ c.Upto c' ∧ (Legible c.trees → P) :=
  Iff.rfl

@[grind →] theorem Reads.past {c c' : Cursor} {P : Prop} (h : Reads c c' P) : c.Past c' :=
  h.1

@[grind →] theorem Reads.upto {c c' : Cursor} {P : Prop} (h : Reads c c' P) : c.Upto c' :=
  .inr h.1

@[grind →] theorem MayRead.upto {c c' : Cursor} {P : Prop} (h : MayRead c c' P) : c.Upto c' :=
  h.1

-- A triple says the same as its runs.
theorem triple_iff {p : Parser α} {c₀ : Cursor} {Φ : α → Cursor → Prop} :
    ⦃fun c => ⌜c = c₀⌝⦄ p ⦃⇓? r c => ⌜Φ r c⌝⦄ ↔ ∀ r c, p.run c₀ = .ok (r, c) → Φ r c := by
  constructor
  · intro h r c hrun
    have hwp := h c₀ rfl
    simp only [wp, PredTrans.apply_pushArg] at hwp
    rw [hrun] at hwp
    exact hwp
  · rintro h c rfl
    simp only [wp, PredTrans.apply_pushArg]
    cases hrun : p.run c with
    | ok result => exact h result.1 result.2 hrun
    | error e => trivial

-- Steps one after another.
theorem triple_bind {p : Parser α} {f : α → Parser β} {Φ : α → Cursor → Prop}
    {Ψ : β → Cursor → Prop} {c₀ : Cursor}
    (hp : ⦃fun c => ⌜c = c₀⌝⦄ p ⦃⇓? r c => ⌜Φ r c⌝⦄)
    (hf : ∀ r c₁, Φ r c₁ → ⦃fun c => ⌜c = c₁⌝⦄ f r ⦃⇓? r c => ⌜Ψ r c⌝⦄) :
    ⦃fun c => ⌜c = c₀⌝⦄ (p >>= f) ⦃⇓? r c => ⌜Ψ r c⌝⦄ := by
  refine triple_iff.2 fun r c hrun => ?_
  obtain ⟨a, c₁, hfirst, hrest⟩ := bind_run_eq_ok_iff.1 hrun
  exact triple_iff.1 (hf a c₁ (triple_iff.1 hp a c₁ hfirst)) r c hrest

-- A look ahead reads nothing.
theorem triple_look {p : Parser Bool} {f : Bool → Parser α} {Ψ : α → Cursor → Prop}
    {c₀ : Cursor} (hp : ⦃fun c => ⌜c = c₀⌝⦄ p ⦃⇓? _ c => ⌜c = c₀⌝⦄)
    (hf : ∀ b, ⦃fun c => ⌜c = c₀⌝⦄ f b ⦃⇓? r c => ⌜Ψ r c⌝⦄) :
    ⦃fun c => ⌜c = c₀⌝⦄ (p >>= f) ⦃⇓? r c => ⌜Ψ r c⌝⦄ :=
  triple_bind hp fun b _ h => h ▸ hf b

-- What follows a choice is looked at once.
theorem triple_join {b : Bool} {p q : Parser α} {f : α → Parser β}
    {Φ : α → Cursor → Prop} {Ψ : β → Cursor → Prop} {c₀ : Cursor}
    (hchoice : ⦃fun c => ⌜c = c₀⌝⦄ (if b then p else q) ⦃⇓? r c => ⌜Φ r c⌝⦄)
    (hf : ∀ r c₁, Φ r c₁ → ⦃fun c => ⌜c = c₁⌝⦄ f r ⦃⇓? r c => ⌜Ψ r c⌝⦄) :
    ⦃fun c => ⌜c = c₀⌝⦄ (if b then p >>= f else q >>= f) ⦃⇓? r c => ⌜Ψ r c⌝⦄ := by
  cases b with
  | false => exact triple_bind hchoice hf
  | true => exact triple_bind hchoice hf

-- Two steps that may be left out in front of the rest.
theorem triple_optional {γ : Type} {b : Bool} {p : Parser α} {q : Parser β} {f : Parser γ}
    {Ψ : γ → Cursor → Prop} {c₀ : Cursor}
    (hp : ⦃fun c => ⌜c = c₀⌝⦄ p ⦃⇓? _ c => ⌜c₀.Upto c⌝⦄)
    (hq : ∀ c₀, ⦃fun c => ⌜c = c₀⌝⦄ q ⦃⇓? _ c => ⌜c₀.Upto c⌝⦄)
    (hf : ∀ c₁, c₀.Upto c₁ → ⦃fun c => ⌜c = c₁⌝⦄ f ⦃⇓? r c => ⌜Ψ r c⌝⦄) :
    ⦃fun c => ⌜c = c₀⌝⦄ (if b then p >>= fun _ => q >>= fun _ => f else f)
    ⦃⇓? r c => ⌜Ψ r c⌝⦄ := by
  cases b with
  | false => exact hf c₀ (.refl c₀)
  | true =>
    refine triple_bind hp fun _ c₁ h₁ => triple_bind (hq c₁) fun _ c₂ h₂ => ?_
    exact hf c₂ (h₁.trans h₂)

@[spec] theorem peek_spec (look : Look) (Q : PostCond Bool (.arg Cursor (.except GrammarError .pure))) :
    ⦃fun c => Q.1 (look c.trees) c⦄ peek look ⦃Q⦄ := by
  mvcgen [peek]

@[spec] theorem peekAt_spec (n : Nat) (look : Look)
    (Q : PostCond Bool (.arg Cursor (.except GrammarError .pure))) :
    ⦃fun c => Q.1 (look (c.trees.drop n)) c⦄ peekAt n look ⦃Q⦄ := by
  mvcgen [peekAt]

@[spec] theorem failAt_spec (pos : Position) (complaint : Complaint) (c₀ : Cursor) :
    ⦃fun c => ⌜c = c₀⌝⦄ (failAt pos complaint : Parser α) ⦃⇓? _ _ => ⌜False⌝⦄ :=
  triple_iff.2 fun _ _ h => nomatch h

@[spec] theorem failWith_spec (complaint : Complaint) (c₀ : Cursor) :
    ⦃fun c => ⌜c = c₀⌝⦄ (failWith complaint : Parser α) ⦃⇓? _ _ => ⌜False⌝⦄ :=
  triple_iff.2 fun _ _ h => nomatch h

@[spec] theorem wanted_spec (things : List String) (c₀ : Cursor) :
    ⦃fun c => ⌜c = c₀⌝⦄ (wanted things : Parser α) ⦃⇓? _ _ => ⌜False⌝⦄ :=
  triple_iff.2 fun _ _ h => nomatch h

attribute [grind ←] Legible.append Legible.cons Legible.single_group
attribute [grind .] Legible.nil

-- Long sequences are taken apart in fewer steps.
@[grind ←] theorem legible_append_append {trees more rest : List Tree} (h : Legible trees)
    (hmore : Legible more) (hrest : Legible rest) : Legible (trees ++ more ++ rest) :=
  (h.append hmore).append hrest

-- A parser that takes the next tree as it is.
theorem reads_tree {c : Cursor} {t : Tree} {rest : List Tree} (hc : c.trees = t :: rest)
    (ht : IsClosed t) : Reads c { c with trees := rest } (Legible [t]) :=
  ⟨⟨[], t, hc, ht⟩, fun h => (hc ▸ h : Legible _).single ht⟩

@[grind .] theorem isClosed_ident (name : Ident) : IsClosed (.ident name) :=
  trivial

@[grind .] theorem isClosed_lifetime (name : String) (pos : Position) :
    IsClosed (.lifetime name pos) :=
  trivial

@[grind .] theorem isClosed_literal (text : String) (pos : Position) :
    IsClosed (.literal text pos) :=
  trivial

@[grind .] theorem isClosed_group (d : Delimiter) (body : List Tree) (start stop : Position) :
    IsClosed (.group d body start stop) :=
  trivial

@[spec] theorem word_spec (w : String) (c₀ : Cursor) :
    ⦃fun c => ⌜c = c₀⌝⦄ word w ⦃⇓? r c => ⌜Reads c₀ c (Legible r)⌝⦄ := by
  mvcgen [word] with grind -ring -linarith [reads_tree]

@[spec] theorem wordOpt_spec (w : String) (c₀ : Cursor) :
    ⦃fun c => ⌜c = c₀⌝⦄ wordOpt w ⦃⇓? r c => ⌜MayRead c₀ c (Legible r)⌝⦄ := by
  mvcgen [wordOpt] with grind -ring -linarith

@[spec] theorem ident_spec (c₀ : Cursor) :
    ⦃fun c => ⌜c = c₀⌝⦄ ident ⦃⇓? r c => ⌜Reads c₀ c (Legible [.ident r])⌝⦄ := by
  mvcgen [ident] with grind -ring -linarith [reads_tree]

@[spec] theorem anyIdent_spec (c₀ : Cursor) :
    ⦃fun c => ⌜c = c₀⌝⦄ anyIdent ⦃⇓? r c => ⌜Reads c₀ c (Legible [.ident r])⌝⦄ := by
  mvcgen [anyIdent] with grind -ring -linarith [reads_tree]

@[spec] theorem lifetime_spec (c₀ : Cursor) :
    ⦃fun c => ⌜c = c₀⌝⦄ lifetime ⦃⇓? r c => ⌜Reads c₀ c (Legible r)⌝⦄ := by
  mvcgen [lifetime] with grind -ring -linarith [reads_tree]

@[spec] theorem lifetimeOpt_spec (c₀ : Cursor) :
    ⦃fun c => ⌜c = c₀⌝⦄ lifetimeOpt ⦃⇓? r c => ⌜MayRead c₀ c (Legible r)⌝⦄ := by
  mvcgen [lifetimeOpt] with grind -ring -linarith

@[spec] theorem anyGroup_spec (c₀ : Cursor) :
    ⦃fun c => ⌜c = c₀⌝⦄ anyGroup
    ⦃⇓? r c => ⌜Reads c₀ c (Legible [.group r.1 r.2.1 r.2.2.1 r.2.2.2])⌝⦄ := by
  mvcgen [anyGroup] with grind -ring -linarith [reads_tree]

-- Whether a tree comes next that needs nothing after it.
def StartsClosed (trees : List Tree) : Prop :=
  ∃ t rest, trees = t :: rest ∧ IsClosed t

@[grind →] theorem startsClosed_of_isWord {w : String} {trees : List Tree}
    (h : isWord w trees = true) : StartsClosed trees := by
  unfold isWord at h
  split at h
  · exact ⟨_, _, rfl, trivial⟩
  · cases h

@[grind →] theorem startsClosed_of_isGroup {d : Delimiter} {trees : List Tree}
    (h : isGroup d trees = true) : StartsClosed trees := by
  unfold isGroup at h
  split at h
  · exact ⟨_, _, rfl, trivial⟩
  · cases h

theorem past_drop {c : Cursor} {n : Nat} (h : StartsClosed (c.trees.drop n)) :
    c.Past { c with trees := c.trees.drop (n + 1) } := by
  obtain ⟨t, rest, htrees, ht⟩ := h
  refine ⟨c.trees.take n, t, ?_, ht⟩
  have hrest : c.trees.drop (n + 1) = rest := by
    rw [← List.drop_drop, htrees, List.drop_one, List.tail_cons]
  rw [hrest, ← htrees, List.take_append_drop]

@[spec] theorem skip_spec (n : Nat) (c₀ : Cursor) :
    ⦃fun c => ⌜c = c₀⌝⦄ skip n
    ⦃⇓? _ c => ⌜∀ m, n = m + 1 → StartsClosed (c₀.trees.drop m) → c₀.Past c⌝⦄ := by
  mvcgen [skip] with grind -ring -linarith [past_drop]

-- Whether an operator needs nothing after it.
@[grind =] def closes (cs : List Char) : Bool :=
  !cs.contains '\x27' && cs.getLast?.any (· ≠ '/')

-- The first character of an operator, and the rest of it.
theorem exists_of_isOp_cons {c : Char} {cs : List Char} {trees : List Tree}
    (h : isOp (c :: cs) trees = true) :
    ∃ joint pos rest, trees = .punct c joint pos :: rest ∧ isOp cs rest = true ∧
      (cs ≠ [] → joint = true) := by
  unfold isOp at h
  split at h
  · rename_i heq
    cases heq
  · rename_i c' joint pos rest heq
    obtain ⟨rfl, rfl⟩ := List.cons.inj heq
    obtain rfl : c = c' := by simpa using h
    exact ⟨joint, pos, rest, rfl, rfl, fun hne => absurd rfl hne⟩
  · rename_i d cs' c' joint pos rest heq
    obtain ⟨rfl, rfl⟩ := List.cons.inj heq
    obtain ⟨⟨rfl, rfl⟩, hrest⟩ : (c = c' ∧ joint = true) ∧ isOp (d :: cs') rest = true := by
      simpa using h
    exact ⟨_, pos, rest, rfl, hrest, fun _ => rfl⟩
  · cases h

-- The trees of an operator, in front of what follows it.
theorem exists_of_isOp {cs : List Char} {trees : List Tree} (h : isOp cs trees = true) :
    ∃ used, trees = used ++ dropOp cs trees ∧
      ∀ c ∈ cs.getLast?, ∃ joint pos, used.getLast? = some (.punct c joint pos) := by
  induction cs generalizing trees with
  | nil => exact ⟨[], by simp [dropOp], by simp⟩
  | cons c cs ih =>
    obtain ⟨joint, pos, rest, rfl, hrest, -⟩ := exists_of_isOp_cons h
    cases cs with
    | nil => exact ⟨[.punct c joint pos], by simp [dropOp], by simp⟩
    | cons d cs =>
      obtain ⟨used, hused, hlast⟩ := ih hrest
      refine ⟨.punct c joint pos :: used, by rw [dropOp, List.cons_append, ← hused], ?_⟩
      intro e he
      obtain ⟨joint', pos', hlast⟩ := hlast e (by simpa using he)
      exact ⟨joint', pos', by simp [List.getLast?_cons, hlast]⟩

theorem along_of_isOp {c : Cursor} {cs : List Char} (h : isOp cs c.trees = true) :
    c.Along { c with trees := dropOp cs c.trees } := by
  obtain ⟨used, htrees, -⟩ := exists_of_isOp h
  exact ⟨used, htrees⟩

theorem past_of_isOp {c : Cursor} {cs : List Char} (h : isOp cs c.trees = true)
    (hcs : closes cs = true) : c.Past { c with trees := dropOp cs c.trees } := by
  obtain ⟨hquote, hlast⟩ := Bool.and_eq_true_iff.1 hcs
  obtain ⟨d, hd, hslash⟩ := (Option.any_eq_true _ _).1 hlast
  obtain ⟨used, htrees, hused⟩ := exists_of_isOp h
  obtain ⟨joint, pos, hgetLast⟩ := hused d hd
  obtain ⟨front, rfl⟩ := List.getLast?_eq_some_iff.1 hgetLast
  have hquote' : d ≠ '\x27' := by
    rintro rfl
    simp [List.mem_of_getLast? hd] at hquote
  exact ⟨front, .punct d joint pos, by simpa using htrees, hquote',
    fun h => absurd h (by simpa using hslash)⟩

-- An operator that was read can be written.
theorem legible_operator {cs : List Char} {trees : List Tree} (h : isOp cs trees = true)
    (hquote : '\x27' ∉ cs) (htrees : Legible trees) (pos : Position) :
    Legible (Tree.operator pos cs) := by
  induction cs generalizing trees with
  | nil => exact .nil
  | cons c cs ih =>
    obtain ⟨hc, hcs⟩ : c ≠ '\x27' ∧ '\x27' ∉ cs := by
      simpa [eq_comm] using hquote
    obtain ⟨joint, place, rest, rfl, hrest, hjoint⟩ := exists_of_isOp_cons h
    have hoperator := ih hrest hcs htrees.tail
    cases htrees with
    | quote _ _ => exact absurd rfl hc
    | punct hmem _ hslash _ =>
      cases cs with
      | nil => exact .punct hmem hc (fun _ h => nomatch h) .nil
      | cons d cs =>
        refine .punct hmem hc (fun h _ => ?_) hoperator
        obtain ⟨e, hlead, hne⟩ := hslash h (hjoint (by simp))
        obtain ⟨joint', place', rest', rfl, -⟩ := exists_of_isOp_cons hrest
        obtain rfl : d = e := by simpa [lead?, chars] using hlead
        refine ⟨d, ?_, hne⟩
        cases cs <;> simp [Tree.operator, lead?, chars]

@[spec] theorem op_spec (cs : List Char) (c₀ : Cursor) (hcs : closes cs = true) :
    ⦃fun c => ⌜c = c₀⌝⦄ op cs ⦃⇓? r c => ⌜Reads c₀ c (Legible r)⌝⦄ := by
  mvcgen [op] with grind -ring -linarith [past_of_isOp, legible_operator, closes]

@[spec] theorem opOpt_spec (cs : List Char) (c₀ : Cursor) (hcs : closes cs = true) :
    ⦃fun c => ⌜c = c₀⌝⦄ opOpt cs ⦃⇓? r c => ⌜MayRead c₀ c (Legible r)⌝⦄ := by
  mvcgen [opOpt] with grind -ring -linarith

-- An operator of any kind.
theorem op_spec_along (cs : List Char) (c₀ : Cursor) (hcs : '\x27' ∉ cs) :
    ⦃fun c => ⌜c = c₀⌝⦄ op cs
    ⦃⇓? r c => ⌜c₀.Along c ∧ (Legible c₀.trees → Legible r)⌝⦄ := by
  mvcgen [op, -op_spec] with grind -ring -linarith [along_of_isOp, legible_operator]

theorem reads_literal {c : Cursor} {l : Literal} {n : Nat} (h : literal? c.trees = some (l, n)) :
    Reads c { c with trees := c.trees.drop n } (Legible
      ((c.trees.take n).map fun | .punct ch _ pos => .punct ch false pos | t => t)) := by
  unfold literal? at h
  split at h
  · rename_i text pos rest htrees
    obtain ⟨-, rfl⟩ := Prod.mk.inj (Option.some.inj h)
    simpa [htrees] using reads_tree htrees trivial
  · rename_i name rest htrees
    have hn : n = 1 := by
      split at h
      · exact (Prod.mk.inj (Option.some.inj h)).2.symm
      · split at h
        · exact (Prod.mk.inj (Option.some.inj h)).2.symm
        · cases h
    subst hn
    simpa [htrees] using reads_tree htrees trivial
  · rename_i joint pos text pos' rest htrees
    have hn : n = 2 := by
      split at h
      · exact (Prod.mk.inj (Option.some.inj h)).2.symm
      · exact (Prod.mk.inj (Option.some.inj h)).2.symm
      · cases h
    subst hn
    refine ⟨⟨[.punct '-' joint pos], .literal text pos', by simp [htrees], trivial⟩, fun hc => ?_⟩
    rw [htrees] at hc
    simp only [htrees, List.take_succ_cons, List.take_zero, List.map_cons, List.map_nil]
    exact .punct (by decide) (by decide) (fun _ h => nomatch h) (hc.tail.single trivial)
  · cases h

@[spec] theorem literal_spec (c₀ : Cursor) :
    ⦃fun c => ⌜c = c₀⌝⦄ literal ⦃⇓? r c => ⌜Reads c₀ c (Legible r.2)⌝⦄ := by
  mvcgen [literal]
  case vc1 hc l n hliteral tokens =>
    exact hc ▸ reads_literal hliteral
  case vc2 => exact False.elim

theorem inGroup_spec {d : Delimiter} {p : Parser α} {Q : α → Prop} (c₀ : Cursor)
    (hp : ∀ c₀, ⦃fun c => ⌜c = c₀⌝⦄ p ⦃⇓? r c => ⌜MayRead c₀ c (Q r)⌝⦄) :
    ⦃fun c => ⌜c = c₀⌝⦄ inGroup d p ⦃⇓? r c => ⌜Reads c₀ c (Q r.value)⌝⦄ := by
  refine triple_iff.2 fun r c hrun => ?_
  obtain ⟨body, inner, htrees, hinner⟩ := inGroup_run_eq_ok hrun
  refine ⟨⟨[], .group d body r.start r.stop, htrees, trivial⟩, fun hc => ?_⟩
  rw [htrees] at hc
  cases hc with
  | group hbody _ => exact (triple_iff.1 (hp _) _ _ hinner).2 hbody

@[spec] theorem tokensIn_spec {d : Delimiter} {p : Parser (List Tree)} (c₀ : Cursor)
    (hp : ∀ c₀, ⦃fun c => ⌜c = c₀⌝⦄ p ⦃⇓? r c => ⌜MayRead c₀ c (Legible r)⌝⦄) :
    ⦃fun c => ⌜c = c₀⌝⦄ tokensIn d p ⦃⇓? r c => ⌜Reads c₀ c (Legible r)⌝⦄ := by
  have hgroup := fun c₀ => inGroup_spec (d := d) c₀ hp
  mvcgen [tokensIn, hgroup] with grind -ring -linarith

-- What a step preserves, of its state and of the cursor, holds after all steps.
theorem repeatAtMost_rule {step : α → Parser (Option α)} {I : α → Cursor → Prop}
    (hstep : ∀ a c₀, I a c₀ → ⦃fun c => ⌜c = c₀⌝⦄ step a
      ⦃⇓? r c => ⌜(r = none → I a c) ∧ ∀ b, r = some b → I b c⌝⦄) (n : Nat) (a : α) (c₀ : Cursor)
    (h : I a c₀) : ⦃fun c => ⌜c = c₀⌝⦄ repeatAtMost step n a ⦃⇓? r c => ⌜I r c⌝⦄ := by
  induction n generalizing a c₀ with
  | zero =>
    mvcgen [repeatAtMost]
    grind
  | succ n ih =>
    mvcgen [repeatAtMost, hstep, ih]
    all_goals grind -ring -linarith

-- At least one step is taken, so that the first one may establish what the others preserve.
theorem repeating_first {step : α → Parser (Option α)} {I : α → Cursor → Prop} {a : α} (c₀ : Cursor)
    (hfirst : ⦃fun c => ⌜c = c₀⌝⦄ step a
      ⦃⇓? r c => ⌜(r = none → I a c) ∧ ∀ b, r = some b → I b c⌝⦄)
    (hstep : ∀ a c₀, I a c₀ → ⦃fun c => ⌜c = c₀⌝⦄ step a
      ⦃⇓? r c => ⌜(r = none → I a c) ∧ ∀ b, r = some b → I b c⌝⦄) :
    ⦃fun c => ⌜c = c₀⌝⦄ repeating step a ⦃⇓? r c => ⌜I r c⌝⦄ := by
  have hall := repeatAtMost_rule hstep
  mvcgen [repeating, repeatAtMost, hfirst, hall] with grind -ring -linarith

theorem repeating_rule {step : α → Parser (Option α)} {I : α → Cursor → Prop} {a : α} (c₀ : Cursor)
    (h : I a c₀)
    (hstep : ∀ a c₀, I a c₀ → ⦃fun c => ⌜c = c₀⌝⦄ step a
      ⦃⇓? r c => ⌜(r = none → I a c) ∧ ∀ b, r = some b → I b c⌝⦄) :
    ⦃fun c => ⌜c = c₀⌝⦄ repeating step a ⦃⇓? r c => ⌜I r c⌝⦄ :=
  repeating_first c₀ (hstep a c₀ h) hstep

theorem repeating_spec {step : α → Parser (Option α)} {I : α → Prop} {a : α} (c₀ : Cursor)
    (hstep : ∀ a c₀, ⦃fun c => ⌜c = c₀⌝⦄ step a
      ⦃⇓? r c => ⌜MayRead c₀ c (I a → ∀ b, r = some b → I b)⌝⦄) :
    ⦃fun c => ⌜c = c₀⌝⦄ repeating step a ⦃⇓? r c => ⌜MayRead c₀ c (I a → I r)⌝⦄ := by
  refine repeating_rule (I := fun b c => MayRead c₀ c (I a → I b)) c₀ ⟨.refl c₀, fun _ h => h⟩ ?_
  intro b c hb
  refine triple_iff.2 fun r c' hrun => ?_
  have hread := triple_iff.1 (hstep b c) r c' hrun
  grind

-- Items of which each has a property, each with the separator after it.
def AllKept (Q : α → Prop) (items : List (α × List Tree)) : Prop :=
  ∀ item ∈ items, Q item.1 ∧ Legible item.2

@[grind .] theorem allKept_nil (Q : α → Prop) : AllKept Q [] :=
  fun _ h => nomatch h

@[grind ←] theorem AllKept.cons {Q : α → Prop} {a : α} {sep : List Tree}
    {items : List (α × List Tree)} (ha : Q a) (hsep : Legible sep) (h : AllKept Q items) :
    AllKept Q ((a, sep) :: items) :=
  List.forall_mem_cons.2 ⟨⟨ha, hsep⟩, h⟩

@[grind ←] theorem AllKept.reverse {Q : α → Prop} {items : List (α × List Tree)}
    (h : AllKept Q items) : AllKept Q items.reverse :=
  fun item hitem => h item (List.mem_reverse.1 hitem)

theorem separated_spec {stop : Look} {sep : List Char} {item : Parser α} {Q : α → Prop}
    (c₀ : Cursor) (hsep : closes sep = true)
    (hitem : ∀ c₀, ⦃fun c => ⌜c = c₀⌝⦄ item ⦃⇓? r c => ⌜MayRead c₀ c (Q r)⌝⦄) :
    ⦃fun c => ⌜c = c₀⌝⦄ separated stop sep item ⦃⇓? r c => ⌜MayRead c₀ c (AllKept Q r)⌝⦄ := by
  have hrepeat := fun step a =>
    @repeating_spec (List (α × List Tree) × Bool) step (fun s => AllKept Q s.1) a
  mvcgen [separated, hrepeat, hitem] with grind -ring -linarith

theorem chained_spec {stop : Look} {sep : List Char} {item : Parser α} {Q : α → Prop}
    (c₀ : Cursor) (hsep : closes sep = true)
    (hitem : ∀ c₀, ⦃fun c => ⌜c = c₀⌝⦄ item ⦃⇓? r c => ⌜MayRead c₀ c (Q r)⌝⦄) :
    ⦃fun c => ⌜c = c₀⌝⦄ chained stop sep item ⦃⇓? r c => ⌜MayRead c₀ c (AllKept Q r)⌝⦄ := by
  have hrepeat := fun step a =>
    @repeating_spec (List (α × List Tree) × Bool) step (fun s => AllKept Q s.1) a
  mvcgen [chained, hrepeat, hitem] with grind -ring -linarith

@[grind →] theorem legible_joined {items : List (List Tree × List Tree)}
    (h : AllKept Legible items) : Legible (joined items) := by
  induction items with
  | nil => exact .nil
  | cons item items ih =>
    obtain ⟨⟨ha, hsep⟩, hitems⟩ := List.forall_mem_cons.1 h
    exact (ha.append hsep).append (ih hitems)

@[spec] theorem separatedTokens_spec {stop : Look} {sep : List Char} {item : Parser (List Tree)}
    (c₀ : Cursor) (hsep : closes sep = true)
    (hitem : ∀ c₀, ⦃fun c => ⌜c = c₀⌝⦄ item ⦃⇓? r c => ⌜MayRead c₀ c (Legible r)⌝⦄) :
    ⦃fun c => ⌜c = c₀⌝⦄ separatedTokens stop sep item ⦃⇓? r c => ⌜MayRead c₀ c (Legible r)⌝⦄ := by
  have hitems := fun c₀ => @separated_spec (List Tree) stop sep item Legible c₀ hsep hitem
  mvcgen [separatedTokens, hitems] with grind -ring -linarith

@[spec] theorem filling_spec {item : Parser (List Tree)} (c₀ : Cursor)
    (hitem : ∀ c₀, ⦃fun c => ⌜c = c₀⌝⦄ item ⦃⇓? r c => ⌜MayRead c₀ c (Legible r)⌝⦄) :
    ⦃fun c => ⌜c = c₀⌝⦄ filling item ⦃⇓? r c => ⌜MayRead c₀ c (Legible r)⌝⦄ := by
  have hrepeat := fun step a => @repeating_spec (List Tree) step Legible a
  mvcgen [filling, hrepeat, hitem] with grind -ring -linarith

theorem attempt?_spec {p : Parser α} {Φ : Cursor → α → Cursor → Prop} (c₀ : Cursor)
    (hp : ∀ c₀, ⦃fun c => ⌜c = c₀⌝⦄ p ⦃⇓? r c => ⌜Φ c₀ r c⌝⦄) :
    ⦃fun c => ⌜c = c₀⌝⦄ attempt? p
    ⦃⇓? r c => ⌜c = c₀ ∧ ∀ found, r = some found → Φ c₀ found.1 found.2⌝⦄ := by
  refine triple_iff.2 fun r c hrun => ?_
  simp only [attempt?, get_bind_run] at hrun
  split at hrun
  · rename_i found hfound
    obtain ⟨rfl, rfl⟩ := pure_run_eq_ok_iff.1 hrun
    exact ⟨rfl, fun _ h => Option.some.inj h ▸ triple_iff.1 (hp c) _ _ hfound⟩
  · obtain ⟨rfl, rfl⟩ := pure_run_eq_ok_iff.1 hrun
    exact ⟨rfl, fun _ h => nomatch h⟩

@[spec] theorem verbatimSince_spec (start c₀ : Cursor) :
    ⦃fun c => ⌜c = c₀⌝⦄ verbatimSince start
    ⦃⇓? r c => ⌜c = c₀ ∧ (start.Upto c₀ → Legible start.trees → Legible r)⌝⦄ := by
  mvcgen [verbatimSince] with grind -ring -linarith [Cursor.Upto.legible_take]

end Parser

end Lifecycle
