import Lifecycle.Proofs.Grammar.Yields
import Lifecycle.Proofs.Token.Reading

/-!
What parsers read of trees that are known. A parser passes from some trees to others if it succeeds on
the former, wherever they stand, and leaves the latter.
-/

namespace Lifecycle

open Text Lifecycle.Tree

namespace Tree

theorem bare_append (trees more : List Tree) : bare (trees ++ more) = bare trees ++ bare more := by
  induction trees using bare.induct <;> simp_all [bare]

@[simp] theorem bare_eq_nil_iff {trees : List Tree} : bare trees = [] ↔ trees = [] := by
  cases trees with
  | nil => simp [bare]
  | cons t rest => cases t <;> simp [bare]

@[simp] theorem length_bare (trees : List Tree) : (bare trees).length = trees.length := by
  induction trees using bare.induct <;> simp_all [bare]

@[simp] theorem drop_bare (n : Nat) (trees : List Tree) :
    (bare trees).drop n = bare (trees.drop n) := by
  induction trees using bare.induct generalizing n with
  | case1 => simp [bare]
  | _ => cases n <;> simp_all [bare]

@[simp] theorem tail_bare (trees : List Tree) : (bare trees).tail = bare trees.tail := by
  rw [← List.drop_one, drop_bare, List.drop_one]

section Inversion

variable {trees rest : List Tree}

theorem of_bare_eq_ident {w : String} (h : bare trees = .ident { text := w } :: rest) :
    ∃ pos rest', trees = .ident { text := w, pos } :: rest' ∧ bare rest' = rest := by
  match trees with
  | .ident ⟨text, pos⟩ :: rest' =>
    obtain ⟨rfl, hrest⟩ : text = w ∧ bare rest' = rest := by simpa [bare] using h
    exact ⟨pos, rest', rfl, hrest⟩
  | [] | .punct _ _ _ :: _ | .lifetime _ _ :: _ | .literal _ _ :: _ | .group _ _ _ _ :: _ =>
    simp [bare] at h

theorem of_bare_eq_lifetime {w : String} (h : bare trees = .lifetime w {} :: rest) :
    ∃ pos rest', trees = .lifetime w pos :: rest' ∧ bare rest' = rest := by
  match trees with
  | .lifetime text pos :: rest' =>
    obtain ⟨rfl, hrest⟩ : text = w ∧ bare rest' = rest := by simpa [bare] using h
    exact ⟨pos, rest', rfl, hrest⟩
  | [] | .punct _ _ _ :: _ | .ident _ :: _ | .literal _ _ :: _ | .group _ _ _ _ :: _ =>
    simp [bare] at h

theorem of_bare_eq_literal {w : String} (h : bare trees = .literal w {} :: rest) :
    ∃ pos rest', trees = .literal w pos :: rest' ∧ bare rest' = rest := by
  match trees with
  | .literal text pos :: rest' =>
    obtain ⟨rfl, hrest⟩ : text = w ∧ bare rest' = rest := by simpa [bare] using h
    exact ⟨pos, rest', rfl, hrest⟩
  | [] | .punct _ _ _ :: _ | .ident _ :: _ | .lifetime _ _ :: _ | .group _ _ _ _ :: _ =>
    simp [bare] at h

theorem of_bare_eq_group {d : Delimiter} {body : List Tree}
    (h : bare trees = .group d body {} {} :: rest) :
    ∃ body' start stop rest', trees = .group d body' start stop :: rest' ∧ bare body' = body ∧
      bare rest' = rest := by
  match trees with
  | .group d' body' start stop :: rest' =>
    obtain ⟨⟨rfl, hbody⟩, hrest⟩ : (d' = d ∧ bare body' = body) ∧ bare rest' = rest := by
      simpa [bare] using h
    exact ⟨body', start, stop, rest', rfl, hbody, hrest⟩
  | [] | .punct _ _ _ :: _ | .ident _ :: _ | .lifetime _ _ :: _ | .literal _ _ :: _ =>
    simp [bare] at h

end Inversion

end Tree

namespace Parser

variable {α β : Type}

-- A question whose answer does not depend on places.
class Blind (look : Look) : Prop where
  bare_eq : ∀ ts, look (bare ts) = look ts

section Looks

variable (ts : List Tree)

@[simp] theorem isWord_bare (w : String) : isWord w (bare ts) = isWord w ts := by
  rcases ts with _ | ⟨_ | _ | _ | _ | _, _⟩ <;> simp [bare, isWord]

@[simp] theorem isWordOf_bare (ws : List String) : isWordOf ws (bare ts) = isWordOf ws ts := by
  rcases ts with _ | ⟨_ | _ | _ | _ | _, _⟩ <;> simp [bare, isWordOf]

@[simp] theorem isAnyIdent_bare : isAnyIdent (bare ts) = isAnyIdent ts := by
  rcases ts with _ | ⟨_ | _ | _ | _ | _, _⟩ <;> simp [bare, isAnyIdent]

@[simp] theorem isIdent_bare : isIdent (bare ts) = isIdent ts := by
  rcases ts with _ | ⟨_ | _ | _ | _ | _, _⟩ <;> simp [bare, isIdent]

@[simp] theorem isGroup_bare (d : Delimiter) : isGroup d (bare ts) = isGroup d ts := by
  rcases ts with _ | ⟨_ | _ | _ | _ | _, _⟩ <;> simp [bare, isGroup]

@[simp] theorem isAnyGroup_bare : isAnyGroup (bare ts) = isAnyGroup ts := by
  rcases ts with _ | ⟨_ | _ | _ | _ | _, _⟩ <;> simp [bare, isAnyGroup]

@[simp] theorem isLifetime_bare : isLifetime (bare ts) = isLifetime ts := by
  rcases ts with _ | ⟨_ | _ | _ | _ | _, _⟩ <;> simp [bare, isLifetime]

@[simp] theorem isEnd_bare : isEnd (bare ts) = isEnd ts := by
  rcases ts with _ | ⟨_ | _ | _ | _ | _, _⟩ <;> simp [bare, isEnd]

@[simp] theorem isOp_nil (c : Char) (cs : List Char) : isOp (c :: cs) [] = false := by
  cases cs <;> rfl

@[simp] theorem isOp_ident (c : Char) (cs : List Char) (name : Ident) :
    isOp (c :: cs) (.ident name :: ts) = false := by
  cases cs <;> rfl

@[simp] theorem isOp_lifetime (c : Char) (cs : List Char) (name : String) (pos : Position) :
    isOp (c :: cs) (.lifetime name pos :: ts) = false := by
  cases cs <;> rfl

@[simp] theorem isOp_literal (c : Char) (cs : List Char) (text : String) (pos : Position) :
    isOp (c :: cs) (.literal text pos :: ts) = false := by
  cases cs <;> rfl

@[simp] theorem isOp_group (c : Char) (cs : List Char) (d : Delimiter) (body : List Tree)
    (start stop : Position) : isOp (c :: cs) (.group d body start stop :: ts) = false := by
  cases cs <;> rfl

@[simp] theorem isOp_punct (c : Char) (cs : List Char) (c' : Char) (joint : Bool) (pos : Position) :
    isOp (c :: cs) (.punct c' joint pos :: ts) =
      (c == c' && (cs.isEmpty || joint && isOp cs ts)) := by
  cases cs <;> simp [isOp, Bool.and_assoc]

@[simp] theorem isOp_bare (cs : List Char) : isOp cs (bare ts) = isOp cs ts := by
  induction cs generalizing ts with
  | nil => rfl
  | cons c cs ih => rcases ts with _ | ⟨_ | _ | _ | _ | _, _⟩ <;> simp [bare, ih]

theorem dropOp_bare (cs : List Char) : dropOp cs (bare ts) = bare (dropOp cs ts) := by
  induction cs generalizing ts with
  | nil => rfl
  | cons c cs ih => rcases ts with _ | ⟨_ | _ | _ | _ | _, _⟩ <;> simp [bare, dropOp, ih]

theorem literal?_bare : literal? (bare ts) = literal? ts := by
  match ts with
  | [] => simp [bare]
  | .ident _ :: _ => simp [bare, literal?]
  | .lifetime _ _ :: _ => simp [bare, literal?]
  | .literal _ _ :: _ => simp [bare, literal?]
  | .group _ _ _ _ :: _ => simp [bare, literal?]
  | .punct _ _ _ :: [] => simp [bare, literal?]
  | .punct _ _ _ :: .ident _ :: _ => simp [bare, literal?]
  | .punct _ _ _ :: .lifetime _ _ :: _ => simp [bare, literal?]
  | .punct _ _ _ :: .punct _ _ _ :: _ => simp [bare, literal?]
  | .punct _ _ _ :: .group _ _ _ _ :: _ => simp [bare, literal?]
  | .punct c _ _ :: .literal _ _ :: _ =>
    by_cases hc : c = '-'
    · subst hc
      simp [bare, literal?]
    · simp [bare, literal?, hc]

@[simp] theorem isLiteral_bare : isLiteral (bare ts) = isLiteral ts := by
  simp [isLiteral, literal?_bare]

end Looks

instance (w : String) : Blind (isWord w) := ⟨fun ts => isWord_bare ts w⟩
instance (ws : List String) : Blind (isWordOf ws) := ⟨fun ts => isWordOf_bare ts ws⟩
instance : Blind isAnyIdent := ⟨isAnyIdent_bare⟩
instance : Blind isIdent := ⟨isIdent_bare⟩
instance (d : Delimiter) : Blind (isGroup d) := ⟨fun ts => isGroup_bare ts d⟩
instance : Blind isAnyGroup := ⟨isAnyGroup_bare⟩
instance : Blind isLifetime := ⟨isLifetime_bare⟩
instance : Blind isEnd := ⟨isEnd_bare⟩
instance (cs : List Char) : Blind (isOp cs) := ⟨fun ts => isOp_bare ts cs⟩
instance : Blind isLiteral := ⟨isLiteral_bare⟩

-- Whether a parser reads from `trees` on and leaves `rest`, and what it yields has a property. The
-- trees are compared without their places.
def Parses (p : Parser α) (trees rest : List Tree) (Q : α → Prop) : Prop :=
  ∀ c, bare c.trees = trees → c.leftover = none →
    ∃ a c', p.run c = .ok (a, c') ∧ bare c'.trees = rest ∧ c'.leftover = none ∧ Q a

-- The same of a parser that may yield anything.
abbrev Passes (p : Parser α) (trees rest : List Tree) : Prop :=
  Parses p trees rest fun _ => True

-- Whether a parser fails on these trees.
def Fails (p : Parser α) (trees : List Tree) : Prop :=
  ∀ c, bare c.trees = trees → c.leftover = none → ∃ e, p.run c = .error e

namespace Parses

variable {p q : Parser α} {f : α → Parser β} {ts mid rest : List Tree} {Q Q' : α → Prop}
  {R : β → Prop}

theorem mono (h : Parses p ts rest Q) (hQ : ∀ a, Q a → Q' a) : Parses p ts rest Q' := by
  intro c htrees hleft
  obtain ⟨a, c', hrun, hrest, hleft', ha⟩ := h c htrees hleft
  exact ⟨a, c', hrun, hrest, hleft', hQ a ha⟩

theorem passes (h : Parses p ts rest Q) : Passes p ts rest :=
  h.mono fun _ _ => trivial

theorem pure {a : α} (h : Q a) : Parses (pure a) ts ts Q :=
  fun c htrees hleft => ⟨a, c, rfl, htrees, hleft, h⟩

theorem bind (hp : Parses p ts mid Q) (hf : ∀ a, Q a → Parses (f a) mid rest R) :
    Parses (p >>= f) ts rest R := by
  intro c htrees hleft
  obtain ⟨a, c₁, hrun, hmid, hleft₁, ha⟩ := hp c htrees hleft
  obtain ⟨b, c', hrun', hrest, hleft', hb⟩ := hf a ha c₁ hmid hleft₁
  exact ⟨b, c', bind_run_eq_ok_iff.2 ⟨a, c₁, hrun, hrun'⟩, hrest, hleft', hb⟩

-- A question is answered by the trees that are ahead.
theorem peek {look : Look} [hlook : Blind look] {f : Bool → Parser β}
    (h : Parses (f (look ts)) ts rest R) : Parses (peek look >>= f) ts rest R := by
  intro c htrees hleft
  rw [peek_bind_run, ← hlook.bare_eq, htrees]
  exact h c htrees hleft

theorem peekAt {n : Nat} {look : Look} [hlook : Blind look] {f : Bool → Parser β}
    (h : Parses (f (look (ts.drop n))) ts rest R) : Parses (peekAt n look >>= f) ts rest R := by
  intro c htrees hleft
  rw [peekAt_bind_run, ← hlook.bare_eq, ← drop_bare, htrees]
  exact h c htrees hleft

theorem yes {b : Bool} (hb : b = true) (h : Parses p ts rest Q) :
    Parses (if b = true then p else q) ts rest Q := by
  rwa [if_pos hb]

theorem no {b : Bool} (hb : b = false) (h : Parses q ts rest Q) :
    Parses (if b = true then p else q) ts rest Q := by
  rwa [if_neg (by simp [hb])]

theorem get {f : Cursor → Parser β}
    (h : ∀ c, bare c.trees = ts → c.leftover = none → Parses (f c) ts rest R) :
    Parses (get >>= f) ts rest R :=
  fun c htrees hleft => h c htrees hleft c htrees hleft

theorem set {c : Cursor} {f : PUnit → Parser β} (htrees : bare c.trees = mid)
    (hleft : c.leftover = none) (h : Parses (f ()) mid rest R) : Parses (set c >>= f) ts rest R :=
  fun _ _ _ => h c htrees hleft

-- What is read up to the end of all trees.
theorem all_eq_ok {trees : List Tree} (h : Parses p ts [] Q) (htrees : bare trees = ts)
    (stop : Position) : ∃ a, all p trees stop = .ok a ∧ Q a := by
  obtain ⟨a, ⟨rest, stop', within', leftover⟩, hrun, hrest, hleft, ha⟩ :=
    h { trees, stop } htrees rfl
  obtain rfl : rest = [] := bare_eq_nil_iff.1 hrest
  obtain rfl : leftover = none := hleft
  exact ⟨a, Fallible.bind_eq_ok_iff.2 ⟨_, hrun, rfl⟩, ha⟩

theorem word (w : String) (rest : List Tree) :
    Parses (word w) (.ident { text := w } :: rest) rest (· ≠ []) := by
  intro c htrees hleft
  obtain ⟨pos, rest', hc, hrest⟩ := of_bare_eq_ident htrees
  refine ⟨[.ident { text := w, pos }], { c with trees := rest' }, ?_, hrest, hleft, by simp⟩
  simp [Parser.word, hc]
  rfl

theorem wordOpt (w : String) (rest : List Tree) :
    Parses (wordOpt w) (.ident { text := w } :: rest) rest (· ≠ []) := by
  exact .peek (.yes (by simp [isWord]) (word w rest))

theorem wordOpt_none {w : String} (h : isWord w ts = false) :
    Parses (Parser.wordOpt w) ts ts (· = []) := by
  exact .peek (.no h (pure rfl))

theorem anyIdent (w : String) (rest : List Tree) :
    Parses anyIdent (.ident { text := w } :: rest) rest (·.text = w) := by
  intro c htrees hleft
  obtain ⟨pos, rest', hc, hrest⟩ := of_bare_eq_ident htrees
  refine ⟨{ text := w, pos }, { c with trees := rest' }, ?_, hrest, hleft, rfl⟩
  simp [Parser.anyIdent, hc]
  rfl

theorem ident {w : String} (h : w ∉ keywords) (rest : List Tree) :
    Parses ident (.ident { text := w } :: rest) rest (·.text = w) := by
  intro c htrees hleft
  obtain ⟨pos, rest', hc, hrest⟩ := of_bare_eq_ident htrees
  refine ⟨{ text := w, pos }, { c with trees := rest' }, ?_, hrest, hleft, rfl⟩
  simp [Parser.ident, hc, h]
  rfl

theorem lifetime (w : String) (rest : List Tree) :
    Passes lifetime (.lifetime w {} :: rest) rest := by
  intro c htrees hleft
  obtain ⟨pos, rest', hc, hrest⟩ := of_bare_eq_lifetime htrees
  refine ⟨[.lifetime w pos], { c with trees := rest' }, ?_, hrest, hleft, trivial⟩
  simp [Parser.lifetime, hc]
  rfl

theorem lifetimeOpt (w : String) (rest : List Tree) :
    Passes lifetimeOpt (.lifetime w {} :: rest) rest :=
  .peek (.yes rfl (lifetime w rest))

theorem lifetimeOpt_none (h : isLifetime ts = false) : Parses Parser.lifetimeOpt ts ts (· = []) :=
  .peek (.no h (pure rfl))

theorem op {ch : Char} {cs : List Char} (h : isOp (ch :: cs) ts = true) :
    Parses (op (ch :: cs)) ts (dropOp (ch :: cs) ts) (· ≠ []) := by
  intro c htrees hleft
  subst htrees
  rw [isOp_bare] at h
  refine ⟨Tree.operator c.pos (ch :: cs), { c with trees := dropOp (ch :: cs) c.trees }, ?_, ?_,
    hleft, ?_⟩
  · simp [Parser.op, h]
    rfl
  · exact (dropOp_bare _ _).symm
  · cases cs <;> simp [Tree.operator]

theorem op1 (ch : Char) (rest : List Tree) :
    Parses (Parser.op [ch]) (.punct ch false {} :: rest) rest (· ≠ []) :=
  op (by simp)

theorem op2 (ch ch' : Char) (rest : List Tree) :
    Parses (Parser.op [ch, ch']) (.punct ch true {} :: .punct ch' false {} :: rest) rest (· ≠ []) :=
  op (by simp)

theorem opOpt_none {cs : List Char} (h : isOp cs ts = false) :
    Parses (opOpt cs) ts ts (· = []) := by
  exact .peek (.no h (pure rfl))

theorem opOpt {ch : Char} {cs : List Char} (h : isOp (ch :: cs) ts = true) :
    Parses (opOpt (ch :: cs)) ts (dropOp (ch :: cs) ts) (· ≠ []) := by
  exact .peek (.yes h (op h))

theorem literal (text : String) (rest : List Tree) :
    Passes literal (.literal text {} :: rest) rest := by
  intro c htrees hleft
  obtain ⟨pos, rest', hc, hrest⟩ := of_bare_eq_literal htrees
  refine ⟨(Literal.ofText text, [.literal text pos]), { c with trees := rest' }, ?_, hrest, hleft,
    trivial⟩
  simp [Parser.literal, literal?, hc]
  rfl

theorem inGroup {d : Delimiter} {body : List Tree} (h : Parses p body [] Q) (rest : List Tree) :
    Parses (inGroup d p) (.group d body {} {} :: rest) rest fun r => Q r.value := by
  intro c htrees hleft
  obtain ⟨body', start, stop, rest', hc, hbody, hrest⟩ := of_bare_eq_group htrees
  obtain ⟨a, inner, hrun, hinner, hleft', ha⟩ :=
    h { trees := body', stop, within := some d, leftover := c.leftover } hbody hleft
  refine ⟨{ value := a, start, stop }, { c with trees := rest', leftover := none }, ?_, hrest, rfl,
    ha⟩
  rw [bare_eq_nil_iff] at hinner
  simp only [Parser.inGroup, get_bind_run, hc, if_true]
  refine lift_bind_run_eq_ok_iff.2 ⟨(a, inner), hrun, ?_⟩
  simp only [hleft', hinner, set_bind_run]
  rfl

theorem tokensIn {d : Delimiter} {p : Parser (List Tree)} {body : List Tree} 
    (h : Passes p body []) (rest : List Tree) :
    Parses (tokensIn d p) (.group d body {} {} :: rest) rest (· ≠ []) :=
  .bind (inGroup h rest) fun _ _ => .pure (by simp)

end Parses

-- How a repetition goes on: from results with a property on, it reads `trees` and leaves `rest`. Each
-- of its steps reads something.
inductive Loops (step : α → Parser (Option α)) (rest : List Tree) (Q : α → Prop) :
    List Tree → (α → Prop) → Prop where
  | stop {P : α → Prop} (h : ∀ a, P a → Parses (step a) rest rest (· = none)) (hQ : ∀ a, P a → Q a) :
    Loops step rest Q rest P
  | next {ts mid : List Tree} {P R : α → Prop}
      (h : ∀ a, P a → Parses (step a) ts mid fun r => ∃ b, r = some b ∧ R b)
      (hlt : mid.length < ts.length) (hmore : Loops step rest Q mid R) :
    Loops step rest Q ts P

theorem repeatAtMost_stop {step : α → Parser (Option α)} {rest : List Tree} {Q : α → Prop} {a : α}
    (h : Parses (step a) rest rest (· = none)) (ha : Q a) (n : Nat) :
    Parses (repeatAtMost step n a) rest rest Q := by
  cases n with
  | zero => exact .pure ha
  | succ n =>
    refine .bind h fun r hr => ?_
    subst hr
    exact .pure ha

theorem Loops.parses {step : α → Parser (Option α)} {ts rest : List Tree} {P Q : α → Prop}
    (h : Loops step rest Q ts P) : ∀ a, P a → Parses (repeating step a) ts rest Q := by
  have hmost : ∀ n, ts.length ≤ n → ∀ a, P a → Parses (repeatAtMost step n a) ts rest Q := by
    induction h with
    | stop h hQ => exact fun n _ a ha => repeatAtMost_stop (h a ha) (hQ a ha) n
    | next h hlt _ ih =>
      intro n hn a ha
      obtain ⟨n, rfl⟩ : ∃ m, n = m + 1 := ⟨n - 1, by omega⟩
      refine .bind (h a ha) fun r hr => ?_
      obtain ⟨b, rfl, hb⟩ := hr
      exact ih n (by omega) b hb
  refine fun a ha => .get fun c htrees _ => hmost _ ?_ a ha
  rw [← htrees, length_bare]
  exact Nat.le_succ _

-- A repetition without a step, and one with a single step.
theorem Parses.repeating_none {step : α → Parser (Option α)} {rest : List Tree} {a : α}
    (h : Parses (step a) rest rest (· = none)) : Parses (repeating step a) rest rest (· = a) :=
  .get fun _ _ _ => repeatAtMost_stop (Q := (· = a)) h rfl _

theorem Parses.repeating_once {step : α → Parser (Option α)} {ts rest : List Tree} {a : α}
    {Q : α → Prop} (h : Parses (step a) ts rest fun r => ∃ b, r = some b ∧ Q b)
    (hstop : ∀ b, Q b → Parses (step b) rest rest (· = none)) :
    Parses (repeating step a) ts rest Q := by
  refine .get fun c _ _ => .bind h fun r hr => ?_
  obtain ⟨b, rfl, hb⟩ := hr
  exact repeatAtMost_stop (hstop b hb) hb _

-- A repetition that reads the trees of some things one after another, and goes on behind them. What it
-- has when it starts on one of them depends on those before it.
theorem Loops.list {γ : Type} {step : α → Parser (Option α)} {tail rest : List Tree} {Q : α → Prop}
    {f : γ → List Tree} {xs : List γ} {I : List γ → α → Prop} (hne : ∀ x ∈ xs, f x ≠ [])
    (h : ∀ done x todo a, done ++ x :: todo = xs → I done a →
      Parses (step a) (f x ++ (todo.flatMap f ++ tail)) (todo.flatMap f ++ tail)
        fun r => ∃ b, r = some b ∧ I (done ++ [x]) b)
    (hmore : Loops step rest Q tail (I xs)) : Loops step rest Q (xs.flatMap f ++ tail) (I []) := by
  have hall : ∀ todo done, done ++ todo = xs → Loops step rest Q (todo.flatMap f ++ tail) (I done) := by
    intro todo
    induction todo with
    | nil =>
      intro done hdone
      rw [List.append_nil] at hdone
      exact hdone ▸ hmore
    | cons x todo ih =>
      intro done hdone
      have hpos : 0 < (f x).length := List.length_pos_iff.2 (hne x (by simp [← hdone]))
      rw [List.flatMap_cons, List.append_assoc]
      refine .next (fun a ha => h done x todo a hdone ha) ?_ (ih (done ++ [x]) (by simp [← hdone]))
      simp only [List.length_append]
      omega
  exact hall xs [] rfl

-- Items with separators between them, up to a place where they end.
inductive Listing (stop : Look) (sep : List Char) (item : Parser α) (rest : List Tree) :
    List Tree → Prop where
  | stop (h : stop rest = true) : Listing stop sep item rest rest
  | last {ts : List Tree} (h : stop ts = false) (hitem : Passes item ts rest)
      (hstop : stop rest = true) (hlt : rest.length < ts.length) : Listing stop sep item rest ts
  | next {ts mid more : List Tree} (h : stop ts = false) (hitem : Passes item ts mid)
      (hmid : stop mid = false) (hsep : Parses (op sep) mid more (· ≠ []))
      (hlt : more.length < ts.length) (hmore : Listing stop sep item rest more) :
    Listing stop sep item rest ts

theorem Listing.parses {stop : Look} [Blind stop] {sep : List Char} {item : Parser α}
    {ts rest : List Tree} (h : Listing stop sep item rest ts) :
    Passes (separated stop sep item) ts rest := by
  unfold separated
  refine .bind (Q := fun _ => True) (Loops.parses (P := fun a => a.2 = true) ?_ _ rfl)
    fun _ _ => .pure trivial
  induction h with
  | stop h =>
    refine .stop (fun (done, more) hmore => ?_) fun _ _ => trivial
    exact .peek (.yes (by simp [h]) (.pure rfl))
  | last h hitem hstop hlt =>
    refine .next (R := fun a => a.2 = false) (fun (done, more) hmore => ?_) hlt
      (.stop (fun (done, more) hmore => ?_) fun _ _ => trivial)
    · refine .peek (.no (by simpa [h] using hmore) (.bind hitem fun a _ => ?_))
      exact .peek (.yes hstop (.pure ⟨_, rfl, rfl⟩))
    · exact .peek (.yes (by simpa using .inl hmore) (.pure rfl))
  | next h hitem hmid hsep hlt _ ih =>
    refine .next (fun (done, more) hmore => ?_) hlt ih
    refine .peek (.no (by simpa [h] using hmore) (.bind hitem fun a _ => ?_))
    exact .peek (.no hmid (.bind hsep fun s _ => .pure ⟨_, rfl, rfl⟩))

-- A single item of a chain.
theorem Parses.chained {stop : Look} [Blind stop] {sep : List Char} {item : Parser α}
    {ts rest : List Tree} (h : stop ts = false) (hitem : Passes item ts rest)
    (hsep : isOp sep rest = false) : Passes (chained stop sep item) ts rest := by
  refine .bind (Parses.repeating_once (Q := fun a => a.2 = false) ?_ fun (done, more) hmore => ?_)
    fun _ _ => .pure trivial
  · refine .peek (.no (by simp [h]) (.bind hitem fun a _ => ?_))
    exact .peek (.no hsep (.pure ⟨_, rfl, rfl⟩))
  · exact .peek (.yes (by simpa using .inl hmore) (.pure rfl))

-- Items that fill a group, one after another.
inductive Filled (item : Parser α) : List Tree → Prop where
  | nil : Filled item []
  | cons {ts more : List Tree} (h : Passes item ts more) (hlt : more.length < ts.length)
      (hmore : Filled item more) : Filled item ts

theorem Filled.loops {item : Parser β} {step : α → Parser (Option α)} {ts : List Tree}
    (h : Filled item ts)
    (hstep : ∀ a ts more, isEnd ts = false → Passes item ts more →
      Parses (step a) ts more fun r => ∃ b, r = some b ∧ True)
    (hstop : ∀ a, Parses (step a) [] [] (· = none)) :
    Loops step [] (fun _ => True) ts fun _ => True := by
  induction h with
  | nil => exact .stop (fun a _ => hstop a) fun _ _ => trivial
  | @cons ts more h hlt _ ih =>
    have hgoesOn : isEnd ts = false := by
      cases ts with
      | nil => simp at hlt
      | cons => rfl
    exact .next (fun a _ => hstep a ts more hgoesOn h) hlt ih

theorem Filled.parses {item : Parser (List Tree)} {ts : List Tree} (h : Filled item ts) :
    Passes (filling item) ts [] := by
  refine (h.loops (fun a ts more hts h => ?_) fun a => ?_).parses _ trivial
  · exact .peek (.no hts (.bind h fun _ _ => .pure ⟨_, rfl, trivial⟩))
  · exact .peek (.yes rfl (.pure rfl))

theorem Parses.attempt {p : Parser α} {f : Option (α × Cursor) → Parser β} {ts mid rest : List Tree}
    {Q : α → Prop} {R : β → Prop} (hp : Parses p ts mid Q)
    (hf : ∀ a c, Q a → bare c.trees = mid → c.leftover = none → Parses (f (some (a, c))) ts rest R) :
    Parses (attempt? p >>= f) ts rest R := by
  intro c htrees hleft
  obtain ⟨a, c₁, hrun, hmid, hleft₁, ha⟩ := hp c htrees hleft
  obtain ⟨b, c', hrun', hrest, hleft', hb⟩ := hf a c₁ ha hmid hleft₁ c htrees hleft
  refine ⟨b, c', bind_run_eq_ok_iff.2 ⟨_, c, ?_, hrun'⟩, hrest, hleft', hb⟩
  simp only [attempt?, get_bind_run, hrun]
  rfl

theorem Fails.attempt {p : Parser α} {f : Option (α × Cursor) → Parser β} {ts rest : List Tree}
    {R : β → Prop} (hp : Fails p ts) (hf : Parses (f none) ts rest R) :
    Parses (attempt? p >>= f) ts rest R := by
  intro c htrees hleft
  obtain ⟨e, hrun⟩ := hp c htrees hleft
  obtain ⟨b, c', hrun', hrest, hleft', hb⟩ := hf c htrees hleft
  refine ⟨b, c', bind_run_eq_ok_iff.2 ⟨_, c, ?_, hrun'⟩, hrest, hleft', hb⟩
  simp only [attempt?, get_bind_run, hrun]
  rfl

theorem Fails.bind {p : Parser α} {f : α → Parser β} {ts mid : List Tree} {Q : α → Prop}
    (hp : Parses p ts mid Q) (hf : ∀ a, Q a → Fails (f a) mid) : Fails (p >>= f) ts := by
  intro c htrees hleft
  obtain ⟨a, c₁, hrun, hmid, hleft₁, ha⟩ := hp c htrees hleft
  obtain ⟨e, hrun'⟩ := hf a ha c₁ hmid hleft₁
  refine ⟨e, ?_⟩
  rw [StateT.run_bind, hrun]
  exact hrun'

theorem Fails.first {p : Parser α} {ts : List Tree} (hp : Fails p ts) (f : α → Parser β) :
    Fails (p >>= f) ts := by
  intro c htrees hleft
  obtain ⟨e, hrun⟩ := hp c htrees hleft
  refine ⟨e, ?_⟩
  rw [StateT.run_bind, hrun]
  rfl

theorem Fails.ident_keyword {w : String} (h : w ∈ keywords) {ts : List Tree} :
    Fails ident (.ident { text := w } :: ts) := by
  intro c htrees _
  obtain ⟨pos, rest, hc, -⟩ := of_bare_eq_ident htrees
  simp only [ident, get_bind_run, hc]
  rw [if_pos (by simp [h])]
  exact ⟨_, failWith_run _ _⟩

theorem Fails.word {w : String} {ts : List Tree} (h : isWord w ts = false) :
    Fails (word w) ts := by
  intro c htrees _
  rw [← htrees, isWord_bare] at h
  simp only [Parser.word, get_bind_run]
  split
  · rename_i name rest hc
    have hne : name.text ≠ w := by simpa [hc, isWord] using h
    rw [if_neg hne]
    exact ⟨_, wanted_run _ _⟩
  · exact ⟨_, wanted_run _ _⟩

end Parser
end Lifecycle
