import Lifecycle.Proofs.Discards

namespace Lifecycle

open Text Code Lifecycle.Tree

-- A piece of a function: what stands in front of a semicolon, what stands in front of a group in braces
-- and in it, or what is left at the end.
inductive Piece where
  | statement (code : List Tree)
  | block (head body : List Tree)
  | rest (code : List Tree)

namespace Tree

-- Whether a piece ends with this.
def ends : Tree → Bool
  | .punct c _ _ => c == ';'
  | .group .brace _ _ _ => true
  | _ => false

-- Whether no piece ends in some code.
def Unended (code : List Tree) : Prop :=
  ∀ t ∈ code, t.ends = false

section Unended

@[simp] theorem unended_nil : Unended [] :=
  List.forall_mem_nil _

@[simp] theorem unended_append {code more : List Tree} :
    Unended (code ++ more) ↔ Unended code ∧ Unended more :=
  List.forall_mem_append

@[simp] theorem unended_word (name : String) : Unended (Code.word name) := by
  simp [Unended, Code.word, Tree.word, ends]

@[simp] theorem unended_op1 {c : Char} : Unended (op1 c) ↔ c ≠ ';' := by
  simp [Unended, op1, Tree.operator, ends]

@[simp] theorem unended_op2 {c d : Char} : Unended (op2 c d) ↔ c ≠ ';' ∧ d ≠ ';' := by
  simp [Unended, op2, Tree.operator, ends]

@[simp] theorem unended_parens (body : List Tree) : Unended (parens body) := by
  simp [Unended, parens, Tree.grouped, ends]

@[simp] theorem unended_joined (names : List String) : Unended (joined names) := by
  induction names using joined.induct <;> simp_all [joined, Code.colons]

end Unended

-- The pieces of some code, of which this was read already.
def piecesFrom (before : List Tree) : List Tree → List Piece
  | [] => if before.isEmpty then [] else [.rest before]
  | .group .brace body _ _ :: code => .block before body :: piecesFrom [] code
  | t :: code => if t.ends then .statement before :: piecesFrom [] code
    else piecesFrom (before ++ [t]) code

def pieces (code : List Tree) : List Piece :=
  piecesFrom [] code

theorem pieces_nil : pieces [] = [] :=
  rfl

-- Code in which no piece ends is read over.
theorem piecesFrom_append {head : List Tree} (h : Unended head)
    (before code : List Tree) :
    piecesFrom before (head ++ code) = piecesFrom (before ++ head) code := by
  induction head generalizing before with
  | nil => simp
  | cons t head ih =>
    obtain ⟨ht, hhead⟩ := List.forall_mem_cons.1 h
    have hstep : piecesFrom before (t :: (head ++ code)) =
        piecesFrom (before ++ [t]) (head ++ code) := by
      cases t with
      | group d body _ _ => cases d <;> simp_all [piecesFrom, ends]
      | _ => simp_all [piecesFrom]
    rw [List.cons_append, hstep, ih hhead, List.append_assoc, List.singleton_append]

theorem pieces_statement {head : List Tree} (h : Unended head) (code : List Tree) :
    pieces (head ++ op1 ';' ++ code) = .statement head :: pieces code := by
  rw [pieces, List.append_assoc, piecesFrom_append h]
  simp [op1, Tree.operator, piecesFrom, ends, pieces]

theorem pieces_braces {head : List Tree} (h : Unended head) (body code : List Tree) :
    pieces (head ++ braces body ++ code) = .block head body :: pieces code := by
  rw [pieces, List.append_assoc, piecesFrom_append h]
  simp [braces, Tree.grouped, piecesFrom, pieces]

theorem pieces_flatMap {α : Type} {f : α → List Tree} {piece : α → Piece} {items : List α}
    (h : ∀ i ∈ items, ∀ code, pieces (f i ++ code) = piece i :: pieces code) (code : List Tree) :
    pieces (items.flatMap f ++ code) = items.map piece ++ pieces code := by
  induction items with
  | nil => rfl
  | cons i rest ih =>
    obtain ⟨hi, hrest⟩ := List.forall_mem_cons.1 h
    rw [List.flatMap_cons, List.append_assoc, hi, ih hrest, List.map_cons, List.cons_append]

end Tree

namespace Call

-- A statement in front of its semicolon.
def head (c : Call) : List Tree :=
  (if c.hasResult then Code.word "let" ++ Code.word "_" ++ op1 '=' else []) ++
    c.callee.tokens ++ Code.word c.method ++ parens c.kind.arguments

-- What the function has for a call: the statement, behind the question to the log if it asks one.
def piece (runtime : Path) (c : Call) : Piece :=
  match c.key with
  | none => .statement c.head
  | some key => .block (Code.word "if" ++ question runtime key c.kind) c.statement

theorem statement_eq_head (c : Call) : c.statement = c.head ++ op1 ';' :=
  rfl

@[simp] theorem unended_head (c : Call) : Unended c.head := by
  cases hresult : c.hasResult <;> cases hcallee : c.callee <;>
    simp [head, hresult, hcallee, Callee.tokens, Code.colons]

theorem pieces_statement (c : Call) : pieces c.statement = [.statement c.head] := by
  simpa [statement_eq_head, pieces_nil] using Tree.pieces_statement c.unended_head []

theorem pieces_tokens (runtime : Path) (c : Call) (code : List Tree) :
    pieces (c.tokens runtime ++ code) = c.piece runtime :: pieces code := by
  cases hkey : c.key with
  | none =>
    simp only [tokens, piece, hkey]
    exact Tree.pieces_statement c.unended_head code
  | some key =>
    have hquestion : Unended (Code.word "if" ++ question runtime key c.kind) := by
      simp [question]
    simp only [tokens, piece, hkey]
    exact pieces_braces hquestion c.statement code

-- Calls are written in their order, each as one piece.
theorem pieces_listTokens (runtime : Path) (calls : List Call) :
    pieces (listTokens runtime calls) = calls.map (piece runtime) := by
  simpa [listTokens, pieces_nil] using pieces_flatMap (fun c _ => pieces_tokens runtime c) []

end Call

namespace Adapter

variable {a : Adapter}

def armPiece (a : Adapter) (arm : Event × List Call) : Piece :=
  .block (a.runtimeName "LifecycleEvent" ++ Code.colons ++ Code.word arm.1.name ++ op2 '=' '>')
    (Call.listTokens a.runtime arm.2)

def partPiece (a : Adapter) : BodyPart → Piece
  | .discarded name => .statement (Code.word "let" ++ Code.word "_" ++ op1 '=' ++ Code.word name)
  | .choice _ => .block (Code.word "match" ++ Code.word "event") a.choices
  | .call c => c.piece a.runtime

-- What is thrown away, the choice by event and the calls that are made for any event follow one
-- another, each as one piece.
theorem pieces_bodyTokens (a : Adapter) : pieces a.bodyTokens = a.parts.map a.partPiece := by
  have hpart : ∀ part ∈ a.parts, ∀ code,
      pieces (a.partTokens part ++ code) = a.partPiece part :: pieces code := by
    intro part hmem code
    obtain ⟨name, -, rfl⟩ | ⟨-, rfl⟩ | ⟨c, -, rfl⟩ := mem_parts_iff.1 hmem
    · exact Tree.pieces_statement (by simp) code
    · exact pieces_braces (by simp) a.choices code
    · exact c.pieces_tokens a.runtime code
  simpa [bodyTokens_eq, pieces_nil] using pieces_flatMap hpart []

-- Each arm is one piece, and so is the last one, for all other events, in which nothing stands.
theorem pieces_choices (hpath : Unended a.runtime.tokens) :
    pieces a.choices =
      a.arms.map a.armPiece ++ [.block (Code.word "_" ++ op2 '=' '>') []] := by
  have harm : ∀ arm ∈ a.arms, ∀ code,
      pieces (a.armTokens arm.1 arm.2 ++ code) = a.armPiece arm :: pieces code := by
    intro arm _ code
    exact pieces_braces (by simp [runtimeName, hpath, Code.colons]) _ code
  have hlast : Unended (Code.word "_" ++ op2 '=' '>') := by
    simp
  rw [choices, List.append_assoc, List.append_assoc, pieces_flatMap harm, ← List.append_assoc]
  simpa [pieces_nil] using pieces_braces hlast [] []

end Adapter

namespace Generator

open Fallible Registry

-- The function in the text of a unit, read piece by piece: in its body the variables that are thrown
-- away, the choice by event and the calls for any event, in the choice an arm for each named event,
-- in an arm its calls in their order, and in each call one statement.
theorem pieces_of_unit {text : String} {g : Generator} (hpath : runtimePath text = .ok g.runtime)
    (hplain : g.runtime.isPlain = true) {e : Entry} {u : SourceUnit} (hu : g.unit e = .ok u) :
    ∃ a, g.adapter e = .ok a ∧ u.body = bodyOf a ∧
      pieces a.bodyTokens = a.parts.map a.partPiece ∧
      pieces a.choices = a.arms.map a.armPiece ++ [.block (Code.word "_" ++ op2 '=' '>') []] ∧
      (∀ arm ∈ a.arms, pieces (Call.listTokens a.runtime arm.2) =
        arm.2.map (Call.piece a.runtime)) ∧
      ∀ c ∈ a.allCalls, pieces c.statement = [.statement c.head] := by
  obtain ⟨a, ha, rfl⟩ := unit_eq_ok_iff.1 hu
  obtain ⟨-, -, -, -, -, -, hruntime, -⟩ := adapter_eq_ok_iff.1 ha
  have hunended : Unended a.runtime.tokens := by
    intro t ht
    rw [hruntime] at ht
    obtain ⟨name, rfl⟩ | ⟨joint, pos, rfl⟩ := mem_tokens_of_runtimePath hpath hplain ht <;> rfl
  exact ⟨a, ha, rfl, a.pieces_bodyTokens, Adapter.pieces_choices hunended,
    fun arm _ => Call.pieces_listTokens a.runtime arm.2, fun c _ => c.pieces_statement⟩

end Generator

end Lifecycle
