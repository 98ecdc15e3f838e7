import Lifecycle.Grammar.Path.Parser
import Lifecycle.Proofs.Grammar.Keeping

namespace Lifecycle

open Std.Do Text Lifecycle.Tree Lifecycle.Parser

set_option mvcgen.warning false

-- A level whose parsers keep what they read legible.
class Level.Keeps (g : Level) : Prop where
  ty (plus : Bool) (c₀ : Cursor) :
    ⦃fun c => ⌜c = c₀⌝⦄ g.ty plus ⦃⇓? r c => ⌜Reads c₀ c (Legible r.tokens)⌝⦄
  bound (captures constant : Bool) (c₀ : Cursor) :
    ⦃fun c => ⌜c = c₀⌝⦄ g.bound captures constant ⦃⇓? r c => ⌜Reads c₀ c (Legible r.tokens)⌝⦄
  expr (record : Bool) (c₀ : Cursor) :
    ⦃fun c => ⌜c = c₀⌝⦄ g.expr record ⦃⇓? r c => ⌜Reads c₀ c (Legible r.tokens)⌝⦄
  unary (record : Bool) (c₀ : Cursor) :
    ⦃fun c => ⌜c = c₀⌝⦄ g.unary record ⦃⇓? r c => ⌜Reads c₀ c (Legible r.tokens)⌝⦄
  climb (record : Bool) (base : Nat) (left : Expr) (c₀ : Cursor) :
    ⦃fun c => ⌜c = c₀⌝⦄ g.climb record base left
    ⦃⇓? r c => ⌜MayRead c₀ c (Legible left.tokens → Legible r.tokens)⌝⦄
  operand (record : Bool) (p : Nat) (c₀ : Cursor) :
    ⦃fun c => ⌜c = c₀⌝⦄ g.operand record p ⦃⇓? r c => ⌜Reads c₀ c (Legible r.tokens)⌝⦄
  early (c₀ : Cursor) :
    ⦃fun c => ⌜c = c₀⌝⦄ g.early ⦃⇓? r c => ⌜Reads c₀ c (Legible r.tokens)⌝⦄
  statements (c₀ : Cursor) :
    ⦃fun c => ⌜c = c₀⌝⦄ g.statements ⦃⇓? r c => ⌜MayRead c₀ c (Legible r)⌝⦄
  block (c₀ : Cursor) :
    ⦃fun c => ⌜c = c₀⌝⦄ g.block ⦃⇓? r c => ⌜Reads c₀ c (Legible r)⌝⦄
  pattern (c₀ : Cursor) :
    ⦃fun c => ⌜c = c₀⌝⦄ g.pattern ⦃⇓? r c => ⌜Reads c₀ c (Legible r.tokens)⌝⦄
  patterns (c₀ : Cursor) :
    ⦃fun c => ⌜c = c₀⌝⦄ g.patterns ⦃⇓? r c => ⌜Reads c₀ c (Legible r.tokens)⌝⦄
  item (c₀ : Cursor) :
    ⦃fun c => ⌜c = c₀⌝⦄ g.item ⦃⇓? r c => ⌜Reads c₀ c (Legible r)⌝⦄
  useTree (root : Bool) (c₀ : Cursor) :
    ⦃fun c => ⌜c = c₀⌝⦄ g.useTree root ⦃⇓? r c => ⌜Reads c₀ c (Legible (r.getD []))⌝⦄
  fields (c₀ : Cursor) :
    ⦃fun c => ⌜c = c₀⌝⦄ g.fields ⦃⇓? r c => ⌜Reads c₀ c (Legible r)⌝⦄

attribute [spec] Level.Keeps.ty Level.Keeps.bound Level.Keeps.expr Level.Keeps.unary
  Level.Keeps.climb Level.Keeps.operand Level.Keeps.early Level.Keeps.statements Level.Keeps.block
  Level.Keeps.pattern Level.Keeps.patterns Level.Keeps.item Level.Keeps.useTree Level.Keeps.fields

def Bound.Kept (b : Bound) : Prop :=
  Legible b.tokens

def Argument.Kept (a : Argument) : Prop :=
  Legible a.tokens ∧ Legible a.comma

-- Whether every part of a path can be written.
def Segment.Kept (s : Segment) : Prop :=
  Legible [.ident s.name] ∧ Legible s.arguments.tokens

@[grind →] theorem Segment.Kept.tokens {s : Segment} (h : s.Kept) : Legible s.tokens :=
  h.1.append h.2

def Path.Kept (p : Path) : Prop :=
  Legible p.leading ∧ ∀ s ∈ p.segments, s.Kept

@[grind ←] theorem Path.kept_ofIdent {name : Ident} (h : Legible [.ident name]) :
    (ofIdent name).Kept :=
  ⟨.nil, by simpa [segments, ofIdent] using ⟨h, Legible.nil⟩⟩

@[grind ←] theorem Path.Kept.withLastArguments {p : Path} {arguments : Arguments} (h : p.Kept)
    (harguments : Legible arguments.tokens) : (p.withLastArguments arguments).Kept := by
  obtain ⟨hleading, hsegments⟩ := h
  obtain ⟨hfirst, hrest⟩ := List.forall_mem_cons.1 hsegments
  unfold Path.withLastArguments
  split
  · rename_i hreverse
    refine ⟨hleading, List.forall_mem_cons.2 ⟨⟨hfirst.1, harguments⟩, hrest⟩⟩
  · rename_i s before hreverse
    have hbefore : ∀ t ∈ s :: before, t.Kept := fun t ht =>
      hrest t (List.mem_reverse.1 (hreverse ▸ ht))
    obtain ⟨hs, hbefore⟩ := List.forall_mem_cons.1 hbefore
    refine ⟨hleading, List.forall_mem_cons.2 ⟨hfirst, fun t ht => ?_⟩⟩
    obtain rfl | ht := List.mem_cons.1 (List.mem_reverse.1 ht)
    · exact ⟨hs.1, harguments⟩
    · exact hbefore t ht

theorem legible_comma : Legible (Tree.operator {} [',']) :=
  .punct (by decide) (by decide) (fun _ h => nomatch h) .nil

theorem legible_separator : Legible Path.separator :=
  .punct (by decide) (by decide) (fun h => absurd h (by decide))
    (.punct (by decide) (by decide) (fun _ h => nomatch h) .nil)

theorem legible_listTokens {items : List Argument} (h : ∀ a ∈ items, a.Kept) :
    Legible (Argument.listTokens items) := by
  induction items using Argument.listTokens.induct with
  | case1 => exact .nil
  | case2 a =>
    have ha := h a (by simp)
    exact ha.1.append ha.2
  | case3 a b rest ih =>
    obtain ⟨ha, hrest⟩ := List.forall_mem_cons.1 h
    have hcomma : Legible (if a.comma.isEmpty then Tree.operator {} [','] else a.comma) := by
      split
      · exact legible_comma
      · exact ha.2
    exact (ha.1.append hcomma).append (ih hrest)

theorem legible_ordered {items : List Argument} (h : ∀ a ∈ items, a.Kept) :
    Legible (Argument.listTokens (Argument.ordered items)) := by
  refine legible_listTokens fun a ha => h a ?_
  simp only [Argument.ordered, List.partition_eq_filter_filter, List.mem_append,
    List.mem_filter] at ha
  exact ha.elim And.left And.left

-- Whether the tokens of an argument can be written.
def ArgumentKept (a : Bool × List Tree) : Prop :=
  Legible a.2

-- The arguments of items that were read.
theorem legible_items {items : List ((Bool × List Tree) × List Tree)}
    (h : AllKept ArgumentKept items) : Legible (Argument.listTokens (Argument.ordered
      (items.map fun x => { isLifetime := x.1.1, tokens := x.1.2, comma := x.2 }))) := by
  refine legible_ordered ?_
  rintro a ha
  obtain ⟨item, hitem, rfl⟩ := List.mem_map.1 ha
  exact h item hitem

@[grind →] theorem Path.Kept.tokens {p : Path} (h : p.Kept) : Legible p.tokens := by
  obtain ⟨hleading, hfirst, hrest⟩ := And.imp_right List.forall_mem_cons.1 h
  refine (hleading.append hfirst.tokens).append ?_
  generalize p.rest = rest at hrest
  induction rest with
  | nil => exact .nil
  | cons s rest ih =>
    obtain ⟨hs, hrest⟩ := List.forall_mem_cons.1 hrest
    exact (legible_separator.append hs.tokens).append (ih hrest)

@[grind →] theorem legible_bounds {bounds : List (Bound × List Tree)}
    (h : AllKept Bound.Kept bounds) : Legible (Bound.listTokens bounds) := by
  induction bounds with
  | nil => exact .nil
  | cons b bounds ih =>
    obtain ⟨⟨hb, hplus⟩, hbounds⟩ := List.forall_mem_cons.1 h
    exact (hb.append hplus).append (ih hbounds)

namespace Grammar

variable {g : Level} [g.Keeps]

@[spec] theorem resultTy_spec (plus : Bool) (c₀ : Cursor) :
    ⦃fun c => ⌜c = c₀⌝⦄ resultTy g plus ⦃⇓? r c => ⌜MayRead c₀ c (Legible r)⌝⦄ := by
  mvcgen [resultTy] with grind -ring -linarith

@[spec] theorem blockWith_spec {inner : Parser (List Tree)} (c₀ : Cursor)
    (hinner : ∀ c₀, ⦃fun c => ⌜c = c₀⌝⦄ inner ⦃⇓? r c => ⌜MayRead c₀ c (Legible r)⌝⦄) :
    ⦃fun c => ⌜c = c₀⌝⦄ blockWith g inner ⦃⇓? r c => ⌜Reads c₀ c (Legible r)⌝⦄ := by
  mvcgen [blockWith, hinner] with grind -ring -linarith

@[spec] theorem constArgument_spec (c₀ : Cursor) :
    ⦃fun c => ⌜c = c₀⌝⦄ constArgument g ⦃⇓? r c => ⌜Reads c₀ c (Legible r)⌝⦄ := by
  mvcgen [constArgument] with grind -ring -linarith

@[spec] theorem associated_spec (s : Segment) (c₀ : Cursor) :
    ⦃fun c => ⌜c = c₀⌝⦄ associated g s
    ⦃⇓? r c => ⌜MayRead c₀ c (Legible s.tokens → Legible (r.getD []))⌝⦄ := by
  have hbounds := fun stop sep c₀ => @separated_spec Bound stop sep (g.bound false true)
    Bound.Kept c₀
  mvcgen [associated, hbounds] with grind -ring -linarith [Bound.Kept]

@[spec] theorem argument_spec (c₀ : Cursor) :
    ⦃fun c => ⌜c = c₀⌝⦄ argument g ⦃⇓? r c => ⌜Reads c₀ c (Legible r.2)⌝⦄ := by
  have htokens : ∀ first : Segment,
      (Ty.path none { leading := [], first, rest := [] }).tokens = first.tokens := by
    simp [Ty.tokens, Path.tokens]
  mvcgen [argument] with grind -ring -linarith

@[spec] theorem angleArguments_spec (c₀ : Cursor) :
    ⦃fun c => ⌜c = c₀⌝⦄ angleArguments g ⦃⇓? r c => ⌜Reads c₀ c (Legible r.tokens)⌝⦄ := by
  have harguments := fun stop sep c₀ => @separated_spec (Bool × List Tree) stop sep (argument g)
    ArgumentKept c₀
  mvcgen [angleArguments, harguments] with grind -ring -linarith [Arguments.tokens, legible_items,
    ArgumentKept]

@[spec] theorem parenArguments_spec (c₀ : Cursor) :
    ⦃fun c => ⌜c = c₀⌝⦄ parenArguments g ⦃⇓? r c => ⌜Reads c₀ c (Legible r.tokens)⌝⦄ := by
  mvcgen [parenArguments] with grind -ring -linarith [Arguments.tokens]

@[spec] theorem segment_spec (inExpr : Bool) (c₀ : Cursor) :
    ⦃fun c => ⌜c = c₀⌝⦄ segment g inExpr ⦃⇓? r c => ⌜Reads c₀ c r.Kept⌝⦄ := by
  mvcgen [segment] with grind -ring -linarith [Segment.Kept, Arguments.tokens]

@[spec] theorem moreSegments_spec (inExpr : Bool) (c₀ : Cursor) :
    ⦃fun c => ⌜c = c₀⌝⦄ moreSegments g inExpr ⦃⇓? r c => ⌜MayRead c₀ c (∀ s ∈ r, s.Kept)⌝⦄ := by
  have hrepeat := fun step a =>
    @repeating_spec (List Segment) step (fun done => ∀ s ∈ done, s.Kept) a
  mvcgen [moreSegments, hrepeat] with grind -ring -linarith

@[spec] theorem path_spec (inExpr : Bool) (c₀ : Cursor) :
    ⦃fun c => ⌜c = c₀⌝⦄ path g inExpr ⦃⇓? r c => ⌜Reads c₀ c r.Kept⌝⦄ := by
  mvcgen [path] with grind -ring -linarith [Path.Kept, Path.segments]

@[spec] theorem qualifiedPath_spec (inExpr : Bool) (c₀ : Cursor) :
    ⦃fun c => ⌜c = c₀⌝⦄ qualifiedPath g inExpr
    ⦃⇓? r c => ⌜Reads c₀ c (Legible ((r.1.map (·.tokens)).getD []) ∧ r.2.Kept)⌝⦄ := by
  have hrepeat := fun step a =>
    @repeating_spec (List Segment) step (fun done => ∀ s ∈ done, s.Kept) a
  mvcgen [qualifiedPath, hrepeat] with grind -ring -linarith [Path.Kept, Path.segments, QualifiedSelf.tokens]

-- Whether names can be written.
def NamesKept (names : List Ident) : Prop :=
  ∀ name ∈ names, Legible [.ident name]

theorem NamesKept.path {leading : List Tree} {names rest : List Ident} {name : Ident}
    (h : NamesKept names) (hnames : names.reverse = name :: rest) (hleading : Legible leading) :
    Path.Kept { leading, first := { name }, rest := rest.map ({ name := · }) } := by
  have hmem : ∀ n ∈ name :: rest, Legible [.ident n] := fun n hn =>
    h n (List.mem_reverse.1 (hnames ▸ hn))
  refine ⟨hleading, ?_⟩
  rintro s hs
  obtain rfl | ⟨n, hn, rfl⟩ : s = { name } ∨ ∃ n ∈ rest, { name := n } = s := by
    simpa [Path.segments] using hs
  · exact ⟨hmem _ (by simp), .nil⟩
  · exact ⟨hmem _ (by simp [hn]), .nil⟩

@[spec] theorem namesWith_spec (isSegment : Look) (leading : List Tree) (c₀ : Cursor) :
    ⦃fun c => ⌜c = c₀⌝⦄ namesWith isSegment leading
    ⦃⇓? r c => ⌜c₀.Upto c ∧ ∀ p, r.1 = some p →
      Reads c₀ c (Legible leading → p.Kept)⌝⦄ := by
  have hrepeat := fun step => @repeating_rule (List Ident × Bool) step
    (fun s c => MayRead c₀ c (NamesKept s.1) ∧ (s.1 ≠ [] → c₀.Past c)) ([], true)
  mvcgen [namesWith, hrepeat] with grind -ring -linarith [NamesKept, NamesKept.path]

@[spec] theorem plainPath_spec (c₀ : Cursor) :
    ⦃fun c => ⌜c = c₀⌝⦄ plainPath ⦃⇓? r c => ⌜Reads c₀ c r.Kept⌝⦄ := by
  mvcgen [plainPath] with grind -ring -linarith

end Grammar

end Lifecycle
