import Lifecycle.Proofs.Token.Literals

namespace Lifecycle

open Text Lexer

-- Whether a text is a literal, or the mark of one that could not be written.
def IsLiteral (cs : List Char) : Prop :=
  (∃ rest, Literal.length? (cs ++ rest) = some cs.length) ∨ cs = errorMark

theorem isLiteral_of_length? {cs : List Char} (h : Literal.length? cs = some cs.length) :
    IsLiteral cs :=
  .inl ⟨[], by simpa using h⟩

theorem readsAs_of_isLiteral {cs : List Char} (h : IsLiteral cs) :
    ReadsAs cs fun pos => .literal (String.ofList cs) pos := by
  obtain ⟨rest, h⟩ | rfl := h
  · exact Literal.readsAs_literal h
  · exact Literal.readsAs_errorMark

theorem IsLiteral.exists_head {cs : List Char} (h : IsLiteral cs) :
    ∃ c rest, cs = c :: rest ∧ c ≠ '/' := by
  obtain ⟨rest, h⟩ | rfl := h
  · obtain ⟨c, more, hcs, hc⟩ := Literal.of_length? h (P := (· ≠ '/')) (by decide) (by decide)
    cases cs with
    | nil => exact absurd (Literal.length?_bounds h).1 (by simp)
    | cons d cs =>
      obtain ⟨rfl, -⟩ := List.cons.inj hcs
      exact ⟨d, cs, rfl, hc⟩
  · exact ⟨_, _, rfl, by decide⟩

-- Whether an apostrophe in front of a literal is read as a token of its own.
def TakesQuote (cs : List Char) : Prop :=
  ∀ tail pos, Stops tail →
    item? pos '\x27' (cs ++ tail) = some (0, [.leaf (.punct '\x27' true pos)])

namespace Tree

-- The first character of the text of some trees.
def lead? (trees : List Tree) : Option Char :=
  trees.head?.bind (·.chars.head?)

-- Whether a slash in front of some trees, without a space, stands for itself.
def TakesSlash (trees : List Tree) : Prop :=
  ∃ c, lead? trees = some c ∧ c ≠ '/' ∧ c ≠ '*'

-- Trees whose text can be read.
inductive Legible : List Tree → Prop where
  | nil : Legible []
  | ident {name : Ident} {rest : List Tree} (hname : IsName name.text.toList) (hrest : Legible rest) :
    Legible (.ident name :: rest)
  | lifetime {name : String} {pos : Position} {rest : List Tree} (hname : IsName name.toList)
      (hrest : Legible rest) :
    Legible (.lifetime name pos :: rest)
  | literal {text : String} {pos : Position} {rest : List Tree} (htext : IsLiteral text.toList)
      (hrest : Legible rest) :
    Legible (.literal text pos :: rest)
  | punct {c : Char} {joint : Bool} {pos : Position} {rest : List Tree} (hc : c ∈ operatorChars)
      (hquote : c ≠ '\x27') (hslash : c = '/' → joint = true → TakesSlash rest)
      (hrest : Legible rest) :
    Legible (.punct c joint pos :: rest)
  | quote {text : String} {pos pos' : Position} {rest : List Tree} (htext : TakesQuote text.toList)
      (hrest : Legible (.literal text pos' :: rest)) :
    Legible (.punct '\x27' true pos :: .literal text pos' :: rest)
  | group {d : Delimiter} {body : List Tree} {start stop : Position} {rest : List Tree}
      (hbody : Legible body) (hrest : Legible rest) :
    Legible (.group d body start stop :: rest)

-- Whether a tree may be the last one of some trees that others follow without a space.
def IsClosed : Tree → Prop
  | .punct c joint _ => c ≠ '\x27' ∧ (c = '/' → joint = false)
  | _ => True

theorem TakesSlash.append {trees : List Tree} (h : TakesSlash trees) (more : List Tree) :
    TakesSlash (trees ++ more) := by
  cases trees with
  | nil =>
    obtain ⟨c, hc, -⟩ := h
    cases hc
  | cons t trees => exact h

namespace Legible

variable {t : Tree} {trees more : List Tree}

theorem tail (h : Legible (t :: trees)) : Legible trees := by
  cases h with
  | ident _ hrest => exact hrest
  | lifetime _ hrest => exact hrest
  | literal _ hrest => exact hrest
  | punct _ _ _ hrest => exact hrest
  | quote _ hrest => exact hrest
  | group _ hrest => exact hrest

theorem append (h : Legible trees) (hmore : Legible more) : Legible (trees ++ more) := by
  induction h with
  | nil => exact hmore
  | ident hname _ ih => exact .ident hname ih
  | lifetime hname _ ih => exact .lifetime hname ih
  | literal htext _ ih => exact .literal htext ih
  | punct hc hquote hslash _ ih =>
    exact .punct hc hquote (fun h hjoint => (hslash h hjoint).append more) ih
  | quote htext _ ih => exact .quote htext ih
  | group hbody _ _ ih => exact .group hbody ih

theorem suffix (h : Legible (trees ++ more)) : Legible more := by
  induction trees with
  | nil => exact h
  | cons t trees ih => exact ih h.tail

-- The trees in front of others, unless the last one needs what follows it.
theorem front (h : Legible (trees ++ more)) (hlast : ∀ t ∈ trees.getLast?, IsClosed t) :
    Legible trees := by
  induction trees with
  | nil => exact .nil
  | cons t trees ih =>
    have hrest : Legible trees := by
      refine ih h.tail fun u hu => hlast u ?_
      cases trees with
      | nil => cases hu
      | cons v trees => simpa using hu
    generalize hall : t :: trees ++ more = all at h
    cases h with
    | nil => cases hall
    | ident hname _ =>
      obtain ⟨rfl, -⟩ := List.cons.inj hall
      exact .ident hname hrest
    | lifetime hname _ =>
      obtain ⟨rfl, -⟩ := List.cons.inj hall
      exact .lifetime hname hrest
    | literal htext _ =>
      obtain ⟨rfl, -⟩ := List.cons.inj hall
      exact .literal htext hrest
    | group hbody _ =>
      obtain ⟨rfl, -⟩ := List.cons.inj hall
      exact .group hbody hrest
    | punct hc hquote hslash _ =>
      obtain ⟨rfl, rfl⟩ := List.cons.inj hall
      refine .punct hc hquote (fun h hjoint => ?_) hrest
      cases trees with
      | nil =>
        have hclosed := (hlast _ rfl).2 h
        simp [hjoint] at hclosed
      | cons u trees => exact hslash h hjoint
    | quote htext _ =>
      obtain ⟨rfl, hnext⟩ := List.cons.inj hall
      cases trees with
      | nil => exact absurd rfl (hlast _ rfl).1
      | cons u trees =>
        obtain ⟨rfl, -⟩ := List.cons.inj hnext
        exact .quote htext hrest

theorem single (h : Legible (t :: trees)) (ht : IsClosed t) : Legible [t] :=
  have hall : Legible ([t] ++ trees) := h
  hall.front (by simpa using ht)

theorem cons (ht : Legible [t]) (h : Legible trees) : Legible (t :: trees) :=
  ht.append h

theorem single_group {d : Delimiter} {start stop : Position} (h : Legible trees) :
    Legible [.group d trees start stop] :=
  .group h .nil

end Legible

end Tree

end Lifecycle
