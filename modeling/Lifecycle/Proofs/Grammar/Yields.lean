import Lifecycle.Grammar.Parser
import Lifecycle.Proofs.Fallible

namespace Lifecycle

namespace Parser

variable {α β : Type}

theorem bind_run_eq_ok_iff {p : Parser α} {f : α → Parser β} {c c' : Cursor} {b : β} :
    (p >>= f).run c = .ok (b, c') ↔
      ∃ a c₁, p.run c = .ok (a, c₁) ∧ (f a).run c₁ = .ok (b, c') := by
  rw [StateT.run_bind, Fallible.bind_eq_ok_iff]
  simp [Prod.exists]

theorem pure_run_eq_ok_iff {a b : α} {c c' : Cursor} :
    (pure a : Parser α).run c = .ok (b, c') ↔ b = a ∧ c' = c := by
  rw [StateT.run_pure]
  simp [pure, Except.pure, eq_comm]

theorem failWith_run (complaint : Complaint) (c : Cursor) :
    (failWith complaint : Parser α).run c = .error { complaint, pos := c.pos } :=
  rfl

theorem wanted_run (things : List String) (c : Cursor) :
    (wanted things : Parser α).run c =
      .error { complaint := .wanted things c.trees.isEmpty, pos := c.pos } :=
  rfl

-- A question is answered without reading anything.
@[simp] theorem peek_bind_run (look : Look) (f : Bool → Parser β) (c : Cursor) :
    (peek look >>= f).run c = (f (look c.trees)).run c :=
  rfl

@[simp] theorem peekAt_bind_run (n : Nat) (look : Look) (f : Bool → Parser β) (c : Cursor) :
    (peekAt n look >>= f).run c = (f (look (c.trees.drop n))).run c :=
  rfl

@[simp] theorem get_bind_run (f : Cursor → Parser β) (c : Cursor) :
    (get >>= f).run c = (f c).run c :=
  rfl

-- A choice by the next trees.
theorem peek_ite_run_eq_ok {look : Look} {p q : Parser α} {c : Cursor} {r : α × Cursor}
    (h : (peek look >>= fun b => if b = true then p else q).run c = .ok r) :
    (look c.trees = true ∧ p.run c = .ok r) ∨ (look c.trees = false ∧ q.run c = .ok r) := by
  rw [peek_bind_run] at h
  cases hlook : look c.trees with
  | true => exact .inl ⟨rfl, by rwa [if_pos hlook] at h⟩
  | false => exact .inr ⟨rfl, by rwa [if_neg (by simp [hlook])] at h⟩

theorem isWord_iff {w : String} {trees : List Tree} :
    isWord w trees = true ↔ ∃ name rest, trees = .ident name :: rest ∧ name.text = w := by
  constructor
  · intro h
    unfold isWord at h
    split at h
    · rename_i name rest
      exact ⟨name, rest, rfl, by simpa using h⟩
    · simp at h
  · rintro ⟨name, rest, rfl, rfl⟩
    simp [isWord]

@[simp] theorem set_bind_run (d : Cursor) (f : PUnit → Parser β) (c : Cursor) :
    (set d >>= f).run c = (f ()).run d :=
  rfl

@[simp] theorem modify_bind_run (next : Cursor → Cursor) (f : PUnit → Parser β) (c : Cursor) :
    ((modify next : Parser PUnit) >>= f).run c = (f ()).run (next c) :=
  rfl

theorem lift_bind_run_eq_ok_iff {result : Except GrammarError α} {f : α → Parser β} {c c' : Cursor}
    {b : β} :
    ((liftM result : Parser α) >>= f).run c = .ok (b, c') ↔
      ∃ a, result = .ok a ∧ (f a).run c = .ok (b, c') := by
  cases result with
  | error e => exact ⟨fun h => (nomatch h), fun ⟨_, h, _⟩ => (nomatch h)⟩
  | ok a => exact ⟨fun h => ⟨a, rfl, h⟩, fun ⟨_, ha, h⟩ => Except.ok.inj ha ▸ h⟩

-- A group that was read, and what its reader made of its contents.
theorem inGroup_run_eq_ok {d : Delimiter} {p : Parser α} {c c' : Cursor} {r : Grouped α}
    (h : (inGroup d p).run c = .ok (r, c')) :
    ∃ body inner, c.trees = .group d body r.start r.stop :: c'.trees ∧
      p.run { trees := body, stop := r.stop, within := some d, leftover := c.leftover } =
        .ok (r.value, inner) := by
  simp only [inGroup, get_bind_run] at h
  split at h
  · rename_i d' body start stop rest htrees
    split at h
    · rename_i hd
      subst d'
      obtain ⟨⟨value, inner⟩, hvalue, h⟩ := lift_bind_run_eq_ok_iff.1 h
      simp only [set_bind_run] at h
      obtain ⟨rfl, rfl⟩ := pure_run_eq_ok_iff.1 h
      exact ⟨body, inner, htrees, hvalue⟩
    · simp [wanted_run] at h
  · simp [wanted_run] at h

-- What reads all of a sequence of trees leaves none of them.
theorem all_eq_ok {p : Parser α} {trees : List Tree} {stop : Text.Position} {a : α}
    (h : all p trees stop = .ok a) :
    ∃ c, p.run { trees, stop } = .ok (a, c) ∧ c.trees = [] := by
  obtain ⟨⟨b, c⟩, hrun, hrest⟩ := Fallible.bind_eq_ok_iff.1 h
  obtain ⟨trees', stop', within', leftover⟩ := c
  cases leftover with
  | some l => cases hrest
  | none =>
    cases trees' with
    | cons t rest => cases hrest
    | nil => exact ⟨_, Except.ok.inj hrest ▸ hrun, rfl⟩

-- All results of a parser have a property.
def Yields (p : Parser α) (Q : α → Prop) : Prop :=
  ∀ c a c', p.run c = .ok (a, c') → Q a

namespace Yields

variable {p : Parser α} {f : α → Parser β} {Q Q' : α → Prop} {R : β → Prop}

theorem true (p : Parser α) : Yields p fun _ => True :=
  fun _ _ _ _ => trivial

theorem pure {a : α} (h : Q a) : Yields (pure a) Q := by
  intro c b c' hrun
  obtain ⟨rfl, -⟩ := pure_run_eq_ok_iff.1 hrun
  exact h

theorem bind (hp : Yields p Q) (hf : ∀ a, Q a → Yields (f a) R) : Yields (p >>= f) R := by
  intro c b c' hrun
  obtain ⟨a, c₁, ha, hb⟩ := bind_run_eq_ok_iff.1 hrun
  exact hf a (hp c a c₁ ha) c₁ b c' hb

-- What a part yields may not matter.
theorem skip (hf : ∀ a, Yields (f a) R) : Yields (p >>= f) R :=
  (Yields.true p).bind fun a _ => hf a

theorem ite {c : Prop} [Decidable c] {q : Parser α} (hp : Yields p Q) (hq : Yields q Q) :
    Yields (if c then p else q) Q := by
  split
  · exact hp
  · exact hq

theorem mono (hp : Yields p Q) (h : ∀ a, Q a → Q' a) : Yields p Q' :=
  fun c a c' hrun => h a (hp c a c' hrun)

-- A step of a repetition that goes on, and one that ends it.
theorem more {a : α} (h : Q a) :
    Yields (Pure.pure (some a) : Parser (Option α)) fun r => ∀ b ∈ r, Q b :=
  .pure fun _ hb => Option.some.inj hb ▸ h

theorem done : Yields (Pure.pure none : Parser (Option α)) fun r => ∀ b ∈ r, Q b :=
  .pure fun _ hb => nomatch hb

-- Every result of a repetition has what the steps keep.
theorem repeating {step : α → Parser (Option α)} {a : α} (ha : Q a)
    (hstep : ∀ a, Q a → Yields (step a) fun r => ∀ b ∈ r, Q b) :
    Yields (Parser.repeating step a) Q := by
  have hall : ∀ n a, Q a → Yields (repeatAtMost step n a) Q := by
    intro n
    induction n with
    | zero => exact fun a ha => .pure ha
    | succ n ih =>
      intro a ha
      refine .bind (hstep a ha) fun r hr => ?_
      cases r with
      | none => exact .pure ha
      | some b => exact ih b (hr b rfl)
  exact .skip fun c => hall _ a ha

theorem failAt (pos : Text.Position) (complaint : Complaint) : Yields (failAt pos complaint) Q :=
  fun _ _ _ hrun => nomatch hrun

theorem failAt_bind (pos : Text.Position) (complaint : Complaint) (f : α → Parser β) :
    Yields (Parser.failAt pos complaint >>= f) R :=
  .bind (Q := fun _ => False) (.failAt pos complaint) fun _ h => h.elim

theorem failWith (complaint : Complaint) : Yields (failWith complaint) Q :=
  fun _ _ _ hrun => nomatch hrun

theorem wanted (things : List String) : Yields (wanted things) Q :=
  fun _ _ _ hrun => nomatch hrun

end Yields

end Parser

end Lifecycle
