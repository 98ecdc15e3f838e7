import Lifecycle.Grammar.Whole
import Lifecycle.Proofs.Grammar.Yields
import Lifecycle.Proofs.Token.Names

namespace Lifecycle

open Text Lifecycle.Parser

-- Whether a text is a name: an identifier that is no keyword.
def isName (text : String) : Bool :=
  isIdentifier text.toList && !keywords.contains text

theorem not_isName_of_mem {text : String} {ch : Char} (hmem : ch ∈ text.toList)
    (hch : isIdentifierRest ch = false) : isName text = false := by
  have hid : isIdentifier text.toList = false := by
    by_contra h
    simp [all_isIdentifierRest (Bool.not_eq_false _ ▸ h) ch hmem] at hch
  simp [isName, hid]

namespace Tree

-- Trees that hold a character which stands in no identifier.
def Marked (trees : List Tree) : Prop :=
  ∃ t ∈ trees, ∃ ch ∈ t.chars, isIdentifierRest ch = false

theorem Marked.of_subset {ts us : List Tree} (h : Marked ts) (hsub : ts ⊆ us) : Marked us := by
  obtain ⟨t, ht, hch⟩ := h
  exact ⟨t, hsub ht, hch⟩

theorem mem_render_of_mem_chars {trees : List Tree} {t : Tree} (ht : t ∈ trees) {ch : Char}
    (hch : ch ∈ t.chars) : ch ∈ render trees := by
  induction trees with
  | nil => simp at ht
  | cons u rest ih =>
    cases rest with
    | nil =>
      obtain rfl : t = u := by simpa using ht
      simpa [render] using hch
    | cons v rest =>
      simp only [render, List.mem_append]
      rcases List.mem_cons.1 ht with rfl | hrest
      · exact .inl (.inl hch)
      · exact .inr (ih hrest)

theorem not_isName_of_mem_render {trees : List Tree} {ch : Char} (hmem : ch ∈ render trees)
    (hch : isIdentifierRest ch = false) : isName (text trees) = false :=
  not_isName_of_mem (by simpa [text] using hmem) hch

theorem not_isName_of_marked {trees : List Tree} (h : Marked trees) :
    isName (text trees) = false := by
  obtain ⟨t, ht, ch, hmem, hch⟩ := h
  exact not_isName_of_mem_render (mem_render_of_mem_chars ht hmem) hch

-- A keyword is no name, and what starts with one is none either.
theorem not_isName_of_keyword {name : Ident} (h : name.text ∈ keywords) (rest : List Tree) :
    isName (text (.ident name :: rest)) = false := by
  cases rest with
  | nil => simp [isName, text, render, chars, h]
  | cons t rest =>
    have hgap : ' ' ∈ render (.ident name :: t :: rest) := by simp [render, gap, isJoint]
    exact not_isName_of_mem_render hgap (by decide)

theorem marked_operator (pos : Position) {c : Char} (hc : isIdentifierRest c = false) :
    Marked (operator pos [c]) :=
  ⟨.punct c false pos, by simp [operator], c, by simp [chars], hc⟩

theorem marked_group (d : Delimiter) (body : List Tree) (start stop : Position) :
    Marked [.group d body start stop] := by
  refine ⟨_, List.mem_singleton_self _, d.opening, ?_, by cases d <;> decide⟩
  cases d <;> cases body <;> simp [chars, Delimiter.opening]

end Tree

namespace Segment

-- Arguments of a segment are marked by their brackets.
def Shaped (s : Segment) : Prop :=
  s.arguments.isEmpty = true ∨ Tree.Marked s.arguments.tokens

end Segment

namespace Path

def Shaped (p : Path) : Prop := ∀ s ∈ p.segments, s.Shaped

theorem last_mem_segments (p : Path) : p.last ∈ p.segments := by
  cases h : p.rest.getLast? with
  | none => simp [last, segments, h]
  | some s => simpa [last, segments, h] using .inr (List.mem_of_getLast? h)

theorem tokens_subset {p : Path} {s : Segment} (h : s ∈ p.segments) : s.tokens ⊆ p.tokens := by
  rcases List.mem_cons.1 h with rfl | hrest
  · exact fun t ht => by simp [tokens, ht]
  · intro t ht
    refine List.mem_append_right _ (List.mem_flatMap.2 ⟨s, hrest, List.mem_append_right _ ht⟩)

-- A path whose last segment has arguments is not written like a name.
theorem Shaped.not_isName {p : Path} (h : p.Shaped) (hlast : p.last.arguments.isEmpty = false) :
    isName (Tree.text p.tokens) = false := by
  have hmarked : Tree.Marked p.last.arguments.tokens :=
    (h _ p.last_mem_segments).resolve_left (by simp [hlast])
  exact Tree.not_isName_of_marked <| hmarked.of_subset <|
    List.Subset.trans (List.subset_cons_self _ _) (tokens_subset p.last_mem_segments)

end Path

-- A bound that is a trait or a lifetime.
def Bound.IsPlain : Bound → Prop
  | .lifetime _ => True
  | .trait _ _ _ => True
  | _ => False

-- The shapes of types that are read.
def Ty.Shaped : Ty → Prop
  | .paren elem _ _ => elem.Shaped
  | .invisible elem => elem.Shaped
  | .reference _ _ _ elem => elem.Shaped
  | .traitObject _ bounds => ∀ b ∈ bounds, b.1.IsPlain
  | .path none p => p.Shaped
  | .path (some q) p => isName (Tree.text (q.tokens ++ p.tokens)) = false
  | .unit _ _ => True
  | .other ts => isName (Tree.text ts) = false

namespace Parser

theorem yields_op (cs : List Char) : Yields (op cs) fun ts => ∃ pos, ts = Tree.operator pos cs := by
  intro c ts c' hrun
  simp only [op, get_bind_run] at hrun
  split at hrun
  · obtain ⟨rfl, -⟩ := pure_run_eq_ok_iff.1 hrun
    exact ⟨_, rfl⟩
  · simp [failWith_run] at hrun

theorem yields_op_marked {c : Char} (hc : isIdentifierRest c = false) :
    Yields (op [c]) Tree.Marked :=
  (yields_op [c]).mono fun _ ⟨pos, hts⟩ => hts ▸ Tree.marked_operator pos hc

theorem yields_word (w : String) :
    Yields (word w) fun ts => ∃ name : Ident, name.text = w ∧ ts = [.ident name] := by
  intro c ts c' hrun
  simp only [word, get_bind_run] at hrun
  split at hrun
  · rename_i name rest heq
    by_cases hname : name.text = w
    · rw [if_pos hname] at hrun
      obtain ⟨_, _, -, hpure⟩ := bind_run_eq_ok_iff.1 hrun
      exact ⟨name, hname, (pure_run_eq_ok_iff.1 hpure).1⟩
    · simp [hname, wanted_run] at hrun
  · simp [wanted_run] at hrun

theorem yields_verbatimSince (start : Cursor) :
    Yields (verbatimSince start) fun ts => ∃ n, ts = start.trees.take n :=
  .skip fun _ => .pure ⟨_, rfl⟩

-- What is read in a group has what its reader yields.
theorem yields_inGroup {α : Type} {d : Delimiter} {p : Parser α} {Q : α → Prop} (hp : Yields p Q) :
    Yields (inGroup d p) fun r => Q r.value := by
  intro c r c' hrun
  obtain ⟨body, inner, -, hvalue⟩ := inGroup_run_eq_ok hrun
  exact hp _ _ _ hvalue

theorem yields_tokensIn (d : Delimiter) (p : Parser (List Tree)) :
    Yields (tokensIn d p) Tree.Marked :=
  .skip fun _ => .pure (Tree.marked_group d _ _ _)

end Parser

namespace Grammar

theorem yields_angleArguments (g : Level) :
    Yields (angleArguments g) fun a => Tree.Marked a.tokens := by
  refine .skip fun turbofish => .bind (yields_op_marked (by decide)) fun start hstart => ?_
  refine .skip fun items => .skip fun stop => .pure ?_
  exact hstart.of_subset fun t ht => by simp [Arguments.tokens, ht]

theorem yields_segment (g : Level) (inExpr : Bool) : Yields (segment g inExpr) Segment.Shaped := by
  refine .skip fun isWord => .ite (.skip fun name => .pure (.inl rfl)) ?_
  refine .skip fun name => .skip fun _ => .skip fun _ => .skip fun _ => .skip fun _ => ?_
  exact .ite (.bind (yields_angleArguments g) fun a ha => .pure (.inr ha)) (.pure (.inl rfl))

theorem yields_moreSegments (g : Level) (inExpr : Bool) :
    Yields (moreSegments g inExpr) fun rest => ∀ s ∈ rest, s.Shaped := by
  refine .bind (Q := fun rest => ∀ s ∈ rest, s.Shaped)
    (.repeating (by simp) fun done hdone => ?_) fun segments hsegments =>
      .pure (by simpa using hsegments)
  refine .skip fun _ => .skip fun _ => .ite (.skip fun _ => ?_) .done
  exact .bind (yields_segment g inExpr) fun s hs => .more (List.forall_mem_cons.2 ⟨hs, hdone⟩)

theorem yields_path (g : Level) (inExpr : Bool) : Yields (path g inExpr) Path.Shaped := by
  refine .skip fun leading => .bind (yields_segment g inExpr) fun first hfirst => ?_
  exact .bind (yields_moreSegments g inExpr) fun rest hrest =>
    .pure (List.forall_mem_cons.2 ⟨hfirst, hrest⟩)

-- A qualified self type is marked by its brackets.
theorem yields_qualifiedPath (g : Level) (inExpr : Bool) :
    Yields (qualifiedPath g inExpr) fun (q, p) => p.Shaped ∧ ∀ q' ∈ q, Tree.Marked q'.tokens := by
  refine .skip fun _ => .ite ?_ (.bind (yields_path g inExpr) fun p hp => .pure ⟨hp, by simp⟩)
  refine .bind (yields_op_marked (by decide)) fun start hstart => .skip fun ty => .skip fun _ => ?_
  extract_lets jp
  have hjp : ∀ trait, Yields (jp trait) fun (q, p) => p.Shaped ∧ ∀ q' ∈ q, Tree.Marked q'.tokens := by
    intro trait
    refine .skip fun _ => .skip fun _ => ?_
    refine .bind (yields_segment g inExpr) fun first hfirst => ?_
    refine .bind (Q := fun rest => ∀ s ∈ rest, s.Shaped)
      (.repeating (by simp) fun done hdone => ?_) fun rest hrest => .pure ⟨?_, ?_⟩
    · refine .skip fun _ => .ite (.skip fun _ => ?_) .done
      exact .bind (yields_segment g inExpr) fun s hs => .more (List.forall_mem_cons.2 ⟨hs, hdone⟩)
    · exact List.forall_mem_cons.2 ⟨hfirst, by simpa using hrest⟩
    · simpa using hstart.of_subset fun t ht => by simp [QualifiedSelf.tokens, ht]
  exact .ite (.skip fun _ => .skip fun _ => .skip fun _ => hjp _) (.skip fun _ => hjp _)

-- Without leave for constant traits there is always a trait.
theorem yields_traitBound (g : Level) : Yields (traitBound g false) fun r => r.isSome = true := by
  refine .skip fun lifetimes => ?_
  extract_lets isConst afterConst
  have hafter : Yields (afterConst () false) fun r => r.isSome = true := by
    refine .skip fun _ => .skip fun modifier => ?_
    extract_lets afterModifier
    have hmodifier : ∀ lifetimes, Yields (afterModifier lifetimes) fun r => r.isSome = true := by
      intro lifetimes
      refine .skip fun p => .skip fun _ => .skip fun _ => .skip fun _ => ?_
      extract_lets _ afterParens
      have hparens : ∀ p, Yields (afterParens p) fun r => r.isSome = true :=
        fun p => .ite (.failAt_bind _ _ _) (.pure rfl)
      exact .ite (.skip fun _ => .skip fun _ => .skip fun _ => hparens _) (.skip fun _ => hparens _)
    exact .ite (.skip fun _ => hmodifier _) (.skip fun _ => hmodifier _)
  refine .skip fun _ => .ite (.skip fun mark => ?_) (.skip fun _ => .ite ?_ hafter)
  · exact .failAt_bind _ _ _
  · exact .skip fun _ => .skip fun _ => .failAt_bind _ _ _

-- A bound of an object is a trait or a lifetime; the other forms are refused there.
theorem yields_bound (g : Level) : Yields (bound g false false) Bound.IsPlain := by
  refine .skip fun _ => .ite (.skip fun _ => .pure trivial) (.skip fun _ => ?_)
  extract_lets afterUse
  have hafter : Yields (afterUse ()) Bound.IsPlain := by
    refine .skip fun _ => .skip fun _ => .ite ?_ ?_
    · refine .bind (yields_inGroup (yields_traitBound g)) fun r hr => ?_
      obtain ⟨⟨before, p⟩, hvalue⟩ := Option.isSome_iff_exists.1 hr
      simp only [hvalue]
      exact .pure trivial
    · refine .bind (yields_traitBound g) fun r hr => ?_
      obtain ⟨⟨before, p⟩, rfl⟩ := Option.isSome_iff_exists.1 hr
      exact .pure trivial
  exact .ite (.skip fun _ => .skip fun _ => .failAt_bind _ _ _) hafter

theorem yields_bounds (g : Level) (plus : Bool) :
    Yields (bounds g plus false false) fun bs => ∀ b ∈ bs, b.1.IsPlain := by
  refine .bind (Q := fun r => ∀ b ∈ r.1, b.1.IsPlain) (.repeating (by simp) ?_)
    fun r hr => .pure (by simpa using hr)
  intro (done, more) hdone
  refine .ite .done (.bind (yields_bound g) fun b hb => .skip fun _ => .ite ?_ ?_)
  · exact .skip fun sign => .skip fun _ => .more (List.forall_mem_cons.2 ⟨hb, hdone⟩)
  · exact .more (List.forall_mem_cons.2 ⟨hb, hdone⟩)

theorem yields_objectBounds (g : Level) (plus : Bool) (pos : Position) :
    Yields (objectBounds g plus pos) fun bs => ∀ b ∈ bs, b.1.IsPlain :=
  .bind (yields_bounds g plus) fun _ hbs => .ite (.pure hbs) (.failAt _ _)

theorem yields_plusBounds (g : Level) :
    Yields (plusBounds g) fun bs => ∀ b ∈ bs, b.2.IsPlain := by
  refine .bind (Q := fun bs => ∀ b ∈ bs, b.2.IsPlain) (.repeating (by simp) ?_)
    fun done hdone => .pure (by simpa using hdone)
  intro done hdone
  refine .skip fun _ => .ite (.skip fun sign => ?_) .done
  exact .bind (yields_bound g) fun b hb => .more (List.forall_mem_cons.2 ⟨hb, hdone⟩)

theorem isPlain_of_mem_withPlus {first : Bound} {more : List (List Tree × Bound)}
    (hfirst : first.IsPlain) (hmore : ∀ b ∈ more, b.2.IsPlain) :
    ∀ b ∈ withPlus first more, b.1.IsPlain := by
  induction more generalizing first with
  | nil => simpa [withPlus] using hfirst
  | cons b rest ih =>
    obtain ⟨hb, hrest⟩ := List.forall_mem_cons.1 hmore
    exact List.forall_mem_cons.2 ⟨hfirst, ih hb hrest⟩

theorem yields_bareBounds (g : Level) {first : Bound} (plus : Bool) (hfirst : first.IsPlain) :
    Yields (bareBounds g first plus) fun bs => ∀ b ∈ bs, b.1.IsPlain := by
  refine .ite (.pure (by simpa using hfirst)) ?_
  refine .bind (Q := fun r => (∀ b ∈ r.1, b.1.IsPlain) ∧ ∀ b ∈ r.2, b.IsPlain)
    (.repeating (by simpa using hfirst) ?_) ?_
  · intro (done, last) ⟨hdone, hlast⟩
    cases last with
    | none => exact .done
    | some b =>
      have hall : ∀ sign : List Tree, ∀ b' ∈ (b, sign) :: done, b'.1.IsPlain :=
        fun sign => List.forall_mem_cons.2 ⟨hlast b rfl, hdone⟩
      refine .skip fun _ => .ite (.skip fun sign => .skip fun _ => .ite ?_ ?_) .done
      · exact .bind (yields_bound g) fun b' hb' => .more ⟨hall sign, by simpa using hb'⟩
      · exact .more ⟨hall sign, by simp⟩
  · intro (done, last) ⟨hdone, hlast⟩
    cases last with
    | none => exact .pure (by simpa using hdone)
    | some b =>
      have hall : ∀ b' ∈ ((b, []) : Bound × List Tree) :: done, b'.1.IsPlain :=
        List.forall_mem_cons.2 ⟨hlast b rfl, hdone⟩
      exact .pure fun b' hb' => hall b' (List.mem_reverse.1 hb')

def ParenTy.Shaped : ParenTy → Prop
  | .object ty => ty.Shaped
  | .single ty => ty.Shaped
  | _ => True

-- The bound that a type in round brackets is.
theorem isPlain_of_boundOfParenTy {start stop : Position} {t : Ty} {b : Bound} (ht : t.Shaped)
    (h : boundOfParenTy start stop t = some b) : b.IsPlain := by
  unfold boundOfParenTy at h
  split at h
  · obtain rfl := Option.some.inj h
    trivial
  · rename_i b' 
    have hb' : b'.IsPlain := ht _ (List.mem_singleton_self _)
    split at h
    · obtain rfl := Option.some.inj h
      trivial
    · obtain rfl := Option.some.inj h
      exact hb'
  · simp at h

theorem yields_fnTy (g : Level) (lifetimes : List Tree) : Yields (fnTy g lifetimes) Ty.Shaped := by
  refine .skip fun unsafeWord => .skip fun abi => .skip fun fnWord => ?_
  refine .bind (yields_tokensIn _ _) fun params hparams => .skip fun result => .pure ?_
  exact Tree.not_isName_of_marked (hparams.of_subset fun t ht => by simp [ht])

theorem yields_tyFromPath (g : Level) (plus : Bool) (lifetimes : List Tree) :
    Yields (tyFromPath g plus lifetimes) Ty.Shaped := by
  refine .bind (yields_qualifiedPath g false) fun (qself, p) ⟨hp, hq⟩ => ?_
  cases qself with
  | some q =>
    refine .pure (Tree.not_isName_of_marked ((hq q rfl).of_subset ?_))
    exact List.subset_append_left _ _
  | none =>
    refine .skip fun _ => .skip fun _ => .ite ?_ (.skip fun _ => .ite ?_ (.pure hp))
    · refine .bind (yields_op_marked (by decide)) fun bang hbang => .skip fun group => ?_
      exact .pure (Tree.not_isName_of_marked (hbang.of_subset fun t ht => by simp [ht]))
    · exact .bind (yields_bareBounds g plus trivial) fun bs hbs => .pure hbs

theorem yields_implTy (g : Level) (plus : Bool) : Yields (implTy g plus) Ty.Shaped := by
  refine .skip fun c => .bind (yields_word "impl") fun implWord himpl => .skip fun bs => ?_
  obtain ⟨name, hname, rfl⟩ := himpl
  exact .ite (.pure (Tree.not_isName_of_keyword (by rw [hname]; decide) _)) (.failAt _ _)

-- A type that starts with `dyn` and is kept as it was written starts with the keyword.
theorem yields_dynTy (g : Level) (plus : Bool) {begin_ : Cursor}
    (hbegin : isWord "dyn" begin_.trees = true) : Yields (dynTy g plus begin_) Ty.Shaped := by
  refine .skip fun c => .skip fun dynWord => .skip fun star => ?_
  refine .bind (yields_objectBounds g plus _) fun bs hbs => .ite (.pure hbs) ?_
  refine .bind (yields_verbatimSince begin_) fun ts hts => .pure ?_
  obtain ⟨n, rfl⟩ := hts
  obtain ⟨name, rest, htrees, hname⟩ := isWord_iff.1 hbegin
  rw [htrees]
  cases n with
  | zero => rfl
  | succ n => exact Tree.not_isName_of_keyword (by rw [hname]; decide) _

section Nested

variable {g : Level} (hg : ∀ plus, Yields (g.ty plus) Ty.Shaped)

include hg

theorem yields_parenTy : Yields (parenTy g) ParenTy.Shaped := by
  refine .skip fun _ => .ite (.pure trivial) (.skip fun _ => .ite ?_ (.skip fun _ => .ite ?_ ?_))
  · exact .skip fun c => .bind (yields_objectBounds g true _) fun bs hbs => .pure hbs
  · refine .bind (yields_traitBound g) fun r hr => ?_
    obtain ⟨⟨before, p⟩, rfl⟩ := Option.isSome_iff_exists.1 hr
    exact .pure trivial
  · refine .bind (hg true) fun first hfirst => .skip fun _ => .ite ?_ (.pure hfirst)
    exact .skip fun comma => .skip fun rest => .pure trivial

theorem yields_tyFromParens (plus : Bool) : Yields (tyFromParens g plus) Ty.Shaped := by
  refine .bind (yields_inGroup (yields_parenTy hg)) fun inner hinner => ?_
  cases hvalue : inner.value with
  | unit => exact .pure trivial
  | object ty =>
    have hty : ty.Shaped := by rwa [hvalue] at hinner
    exact .pure hty
  | optional before p =>
    exact .bind (yields_plusBounds g) fun more hmore => .pure (isPlain_of_mem_withPlus trivial hmore)
  | tuple tokens => exact .pure (Tree.not_isName_of_marked (Tree.marked_group _ _ _ _))
  | single ty =>
    have hty : ty.Shaped := by rwa [hvalue] at hinner
    refine .skip fun _ => .ite ?_ (.pure hty)
    cases hfirst : boundOfParenTy inner.start inner.stop ty with
    | none => exact .pure hty
    | some first =>
      have hplain := isPlain_of_boundOfParenTy hty hfirst
      exact .bind (yields_plusBounds g) fun more hmore => .pure (isPlain_of_mem_withPlus hplain hmore)

theorem shaped_of_tyAfter {plus : Bool} {begin_ c c' : Cursor} {lifetimes : List Tree}
    {starts : List String} {t : Ty}
    (hbegin : isWord "dyn" c.trees = true → isWord "dyn" begin_.trees = true)
    (hrun : (tyAfter g plus begin_ lifetimes starts).run c = .ok (t, c')) : t.Shaped := by
  unfold tyAfter at hrun
  obtain ⟨-, hrun⟩ | ⟨-, hrun⟩ := peek_ite_run_eq_ok hrun
  · exact yields_tyFromParens hg plus _ _ _ hrun
  obtain ⟨-, hrun⟩ | ⟨-, hrun⟩ := peek_ite_run_eq_ok hrun
  · exact yields_fnTy g lifetimes _ _ _ hrun
  obtain ⟨-, hrun⟩ | ⟨-, hrun⟩ := peek_ite_run_eq_ok hrun
  · exact yields_tyFromPath g plus lifetimes _ _ _ hrun
  obtain ⟨hdyn, hrun⟩ | ⟨-, hrun⟩ := peek_ite_run_eq_ok hrun
  · exact yields_dynTy g plus (hbegin hdyn) _ _ _ hrun
  -- What follows needs no look at what has been read.
  revert hrun
  refine Yields.skip (fun _ => .ite ?slice (.skip fun _ => .ite ?pointer (.skip fun _ =>
    .ite ?reference (.skip fun _ => .skip fun _ => .ite ?never (.skip fun _ =>
      .ite (yields_implTy g plus) (.skip fun _ => .ite ?inferred (.skip fun _ =>
        .ite ?object (.wanted _)))))))) _ _ _
  case slice =>
    exact .bind (yields_tokensIn _ _) fun ts hts => .pure (Tree.not_isName_of_marked hts)
  case pointer =>
    refine .bind (yields_op_marked (by decide)) fun star hstar => .skip fun _ => .ite ?_ (.wanted _)
    refine .skip fun name => .skip fun ty => .pure (Tree.not_isName_of_marked ?_)
    exact hstar.of_subset fun t ht => by simp [ht]
  case reference =>
    refine .skip fun mark => .skip fun lifetime => .skip fun mutable => ?_
    exact .bind (hg false) fun elem helem => .pure helem
  case never =>
    exact .bind (yields_op_marked (by decide)) fun ts hts => .pure (Tree.not_isName_of_marked hts)
  case inferred =>
    refine .bind (yields_word "_") fun ts hts => .pure ?_
    obtain ⟨name, hname, rfl⟩ := hts
    exact Tree.not_isName_of_keyword (by rw [hname]; decide) []
  case object =>
    exact .skip fun pos => .bind (yields_objectBounds g true _) fun bs hbs => .pure hbs

theorem yields_ty (plus : Bool) : Yields (ty g plus) Ty.Shaped := by
  intro c t c' hrun
  rw [ty, get_bind_run] at hrun
  obtain ⟨-, hrun⟩ | ⟨-, hrun⟩ := peek_ite_run_eq_ok hrun
  · obtain ⟨lifetimes, c₁, -, hrun⟩ := bind_run_eq_ok_iff.1 hrun
    obtain ⟨-, hrun⟩ | ⟨hdyn, hrun⟩ := peek_ite_run_eq_ok hrun
    · cases hrun
    rw [peek_bind_run, peek_bind_run] at hrun
    split at hrun
    · exact shaped_of_tyAfter hg (fun h => by simp [hdyn] at h) hrun
    · cases hrun
  · exact shaped_of_tyAfter hg id hrun

end Nested

-- Types that are read are shaped, however deep.
theorem yields_ty_ofDepth (depth : Nat) (plus : Bool) :
    Yields ((Level.ofDepth depth).ty plus) Ty.Shaped := by
  induction depth generalizing plus with
  | zero => exact .failWith _
  | succ depth ih => exact yields_ty ih plus

end Grammar

end Lifecycle
