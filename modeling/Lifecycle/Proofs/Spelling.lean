import Lifecycle.Proofs.Names
import Lifecycle.Proofs.Report

namespace Lifecycle

open Text Lexer Lifecycle.Parser

namespace Lexer

-- A text that is skipped up to some rest of it, being white space and comments until there.
inductive Skips : List Char → List Char → Prop where
  | done {cs : List Char} : Skips cs cs
  | blank {cs rest : List Char} {n : Nat} (h : blankLength cs = some n)
      (hrest : Skips (cs.drop n) rest) : Skips cs rest

-- A text without the byte order mark in front of it.
def afterMark : List Char → List Char
  | '\ufeff' :: rest => rest
  | cs => cs

theorem lexemes_eq (cs : List Char) :
    ∃ pos, lexemes cs = lexemesWithin (afterMark cs).length pos (afterMark cs) := by
  by_cases h : ∃ rest, cs = '\ufeff' :: rest
  · obtain ⟨rest, rfl⟩ := h
    exact ⟨_, rfl⟩
  · have hmark : afterMark cs = cs := by
      unfold afterMark
      split
      · exact absurd ⟨_, rfl⟩ h
      · rfl
    refine ⟨{}, ?_⟩
    unfold lexemes
    split
    · exact absurd ⟨_, rfl⟩ h
    · rw [hmark]

theorem blankLength_pos {cs : List Char} {n : Nat} (h : blankLength cs = some n) : 0 < n := by
  unfold blankLength at h
  split at h
  · split at h
    · cases h
    · obtain rfl := Option.some.inj h
      omega
  · split at h
    · cases h
    · obtain ⟨k, -, rfl⟩ := Option.map_eq_some_iff.1 h
      omega
  · split at h
    · obtain rfl := Option.some.inj h
      omega
    · cases h
  · cases h

-- What has no lexemes is blank.
theorem blankLength_of_item? {pos : Position} {c : Char} {cs : List Char} {n : Nat}
    (h : item? pos c cs = some (n, [])) : blankLength (c :: cs) = some (n + 1) := by
  unfold item? at h
  split at h
  · rename_i k hk
    obtain ⟨rfl, -⟩ := Prod.mk.inj (Option.some.inj h)
    rw [hk, Nat.sub_add_cancel (blankLength_pos hk)]
  · split at h
    · rename_i d _
      obtain ⟨-, hnil⟩ := Prod.mk.inj (Option.some.inj h)
      simp [Doc.lexemes] at hnil
    · split at h
      · cases h
      · split at h
        · cases h
        · cases h
        · obtain ⟨⟨k, t⟩, -, heq⟩ := Option.map_eq_some_iff.1 h
          cases heq

theorem Skips.of_item? {pos : Position} {c : Char} {cs rest : List Char} {n : Nat}
    (h : item? pos c cs = some (n, [])) (hrest : Skips (cs.drop n) rest) : Skips (c :: cs) rest :=
  .blank (blankLength_of_item? h) (by simpa using hrest)

theorem skips_of_lexes_nil {pos : Position} {cs : List Char} (h : Lexes pos cs []) : Skips cs [] := by
  generalize hls : ([] : List Lexeme) = ls at h
  induction h with
  | done => exact .done
  | item hitem _ ih =>
    obtain ⟨rfl, rfl⟩ := List.append_eq_nil_iff.1 hls.symm
    exact .of_item? hitem (ih rfl)

-- The text of a single identifier, with what is skipped before and after it.
theorem skips_of_lexes_ident {pos : Position} {cs : List Char} {name : Ident}
    (h : Lexes pos cs [.leaf (.ident name)]) :
    ∃ after, Skips cs (name.text.toList ++ after) ∧ Skips after [] := by
  generalize hls : [Lexeme.leaf (.ident name)] = ls at h
  induction h with
  | done => cases hls
  | @item pos c cs n ls rest hitem hrest ih =>
    cases itemShape hitem with
    | blank =>
      obtain ⟨after, hbefore, hafter⟩ := ih hls
      exact ⟨after, .of_item? hitem hbefore, hafter⟩
    | doc _ d => simp [Doc.lexemes] at hls
    | broken => simp at hls
    | opening => simp at hls
    | closing => simp at hls
    | token ht =>
      obtain ⟨rfl, rfl⟩ : _ = Tree.ident name ∧ rest = [] := by simpa [eq_comm] using hls
      cases ht with
      | ident pos hc hlength =>
        refine ⟨cs.drop n, ?_, skips_of_lexes_nil hrest⟩
        rw [String.toList_ofList, List.take_succ_cons, List.cons_append, List.take_append_drop]
        exact .done

end Lexer

theorem identifier_of_read? {text : String} {found : Ident}
    (h : Tree.read? text.toList = some [.ident found]) (hkeyword : found.text ∉ keywords) :
    identifier text = .ok found.text := by
  have hcontains : keywords.contains found.text = false := by simpa using hkeyword
  have hrun : Parser.ident.run { trees := [.ident found] } = .ok (found, { trees := [] }) := by
    simp only [Parser.ident, get_bind_run, hcontains]
    rfl
  have hall : Parser.all Parser.ident [.ident found] {} = .ok found := by
    rw [Parser.all, hrun]
    rfl
  simp only [identifier, Parser.text, h, hall]

theorem exists_read?_of_identifier {text name : String} (h : identifier text = .ok name) :
    ∃ pos, Tree.read? text.toList = some [.ident { text := name, pos }] := by
  unfold identifier at h
  split at h
  · rename_i found hfound
    obtain rfl := Except.ok.inj h
    unfold Parser.text at hfound
    split at hfound
    · rename_i trees htrees
      obtain ⟨c, hrun, hend⟩ := all_eq_ok hfound
      simp only [Parser.ident, get_bind_run] at hrun
      split at hrun
      · rename_i rest
        split at hrun
        · cases hrun
        · simp only [modify_bind_run] at hrun
          obtain ⟨rfl, rfl⟩ := pure_run_eq_ok_iff.1 hrun
          obtain rfl : rest = [] := hend
          exact ⟨found.pos, htrees⟩
      · cases hrun
    · cases hfound
  · cases h

-- An identifier is read as itself.
theorem identifier_of_isIdentifier {text : String} (h : IsIdentifier text) :
    identifier text = .ok text := by
  obtain ⟨hname, hkeyword⟩ := h
  obtain ⟨c, rest, htext, hitem⟩ := readsAs_name hname [] {} stops_nil
  rw [List.append_nil] at hitem
  have hlexes : Lexes {} (c :: rest)
      (Lexer.flatten [.ident { text := String.ofList text.toList }]) := by
    simp only [Lexer.flatten]
    exact .single hitem (by simpa using Lexes.done)
  have hmark : c ≠ '\ufeff' := by
    obtain ⟨d, more, htext', hstart⟩ := hname.exists_start
    obtain ⟨rfl, -⟩ := List.cons.inj (htext.symm.trans htext')
    exact identifierStart_ne hstart (by decide +kernel)
  have hread := Tree.read?_of_lexes hmark hlexes
  rw [← htext, String.ofList_toList] at hread
  exact identifier_of_read? hread hkeyword

-- A text that spells an identifier: there is nothing else in it but white space and comments.
structure Spells (text name : String) : Prop where
  identifier : IsIdentifier name
  around : ∃ after, Skips (afterMark text.toList) (name.toList ++ after) ∧ Skips after []
  verbatim_iff : name = text ↔ IsIdentifier text

theorem spells_of_identifier {text name : String} (h : identifier text = .ok name) :
    Spells text name := by
  have hname := isIdentifier_of_identifier h
  refine ⟨hname, ?_, fun heq => heq ▸ hname, fun htext => ?_⟩
  · obtain ⟨pos, hread⟩ := exists_read?_of_identifier h
    obtain ⟨ls, hls, hgroup⟩ := Option.bind_eq_some_iff.1 hread
    obtain ⟨start, hlexemes⟩ := lexemes_eq text.toList
    rw [hlexemes] at hls
    have hlexes := (lexemesWithin_eq_some_iff le_rfl).1 hls
    obtain rfl : ls = [.leaf (.ident { text := name, pos })] := by
      obtain ⟨more, hmore, hflat⟩ := groups_of_group hgroup
      obtain rfl : [Tree.ident { text := name, pos }] = more := by simpa using hmore
      cases hflat with
      | leaf hrest =>
        cases hrest
        rfl
    exact skips_of_lexes_ident hlexes
  · rw [identifier_of_isIdentifier htext] at h
    exact (Except.ok.inj h).symm

theorem identifier_cases (text : String) :
    (∃ name, identifier text = .ok name ∧ Spells text name) ∨
      ∃ cause, identifier text = .error (.invalidIdentifier text cause) := by
  cases h : identifier text with
  | ok name => exact .inl ⟨name, rfl, spells_of_identifier h⟩
  | error e =>
    unfold identifier at h
    split at h
    · cases h
    · exact .inr ⟨_, by rw [← Except.error.inj h]⟩

-- The callbacks of all calls in the code of a class, in the order of the calls.
def Entry.called (e : Entry) : List Callback :=
  e.namedEvents.flatMap e.callbacksFor ++ e.anyCallbacks

-- A call whose identifiers are spelled by the texts of its callback. What it asks the log for is the
-- text itself.
structure Call.IsSpelledBy (asksLog : Bool) (c : Callback) (k : Call) : Prop where
  method : Spells c.name k.method
  path : c.receiver = .none → ∃ name modules, Spells c.declaringClass.name name ∧
    List.Forall₂ Spells c.declaringClass.modules modules ∧
      k.callee = .path (if modules.isEmpty then [name] else "crate" :: modules ++ [name])
  key : k.key = if asksLog then some c.name else none

namespace Generator

open Fallible

theorem spells_of_classPath {c : ClassPath} {path : List String} (h : classPath c = .ok path) :
    ∃ name modules, Spells c.name name ∧ List.Forall₂ Spells c.modules modules ∧
      path = if modules.isEmpty then [name] else "crate" :: modules ++ [name] := by
  obtain ⟨name, hname, hpath⟩ := bind_eq_ok_iff.1 h
  have hspells := spells_of_identifier hname
  split at hpath
  · rename_i hempty
    obtain rfl := Except.ok.inj hpath
    rw [List.isEmpty_iff.1 hempty]
    exact ⟨name, [], hspells, .nil, rfl⟩
  · rename_i hne
    obtain ⟨modules, hmodules, hpure⟩ := bind_eq_ok_iff.1 hpath
    obtain rfl := Except.ok.inj hpure
    have hall := (mapM_eq_ok_iff.1 hmodules).imp fun _ _ => spells_of_identifier
    refine ⟨name, modules, hspells, hall, ?_⟩
    have hmodules : modules ≠ [] := by
      rintro rfl
      simp [List.forall₂_nil_right_iff.1 hall] at hne
    simp [hmodules]

theorem isSpelledBy_of_call {g : Generator} {c : Callback} {k : Call} (h : g.call c = .ok k) :
    k.IsSpelledBy g.callLogger c := by
  obtain ⟨hmethod, hcallee, -, -, hkey⟩ := call_eq_ok_iff.1 h
  refine ⟨spells_of_identifier hmethod, fun hreceiver => ?_, hkey⟩
  simp only [callee, hreceiver] at hcallee
  obtain ⟨path, hpath, hpure⟩ := bind_eq_ok_iff.1 hcallee
  obtain ⟨name, modules, hname, hmodules, rfl⟩ := spells_of_classPath hpath
  exact ⟨name, modules, hname, hmodules, (Except.ok.inj hpure).symm⟩

theorem forall₂_call_allCalls {g : Generator} {e : Entry} {a : Adapter} (h : g.adapter e = .ok a) :
    List.Forall₂ (fun c k => g.call c = .ok k) e.called a.allCalls := by
  obtain ⟨-, -, -, harms, halways, -⟩ := adapter_eq_ok_iff.1 h
  refine List.rel_append (List.rel_flatMap (mapM_eq_ok_iff.1 harms) ?_) (mapM_eq_ok_iff.1 halways)
  intro event arm harm
  exact (arm_eq_ok_iff.1 harm).2

-- The identifiers in the code of a class are spelled by its name, by the name of its source text and
-- by the names of its callbacks, and a text that spells no identifier is refused. They are these
-- texts themselves exactly where the texts are identifiers, without anything around them. Where all
-- callbacks have such names, a call asks the log for the identifier that it calls.
theorem names_of_unit {g : Generator} {e : Entry} {u : SourceUnit} (h : g.unit e = .ok u) :
    ∃ a, g.adapter e = .ok a ∧ u.body = bodyOf a ∧
      Spells u.name a.name ∧ Spells e.subject.name a.subject ∧
      List.Forall₂ (fun c k => k.IsSpelledBy g.callLogger c) e.called a.allCalls ∧
      ((∀ c ∈ e.called, IsIdentifier c.name) →
        List.Forall₂ (fun c k => k.method = c.name ∧
          k.key = if g.callLogger then some k.method else none) e.called a.allCalls) ∧
      ∀ text, (∃ name, Spells text name) ∨
        ∃ cause, identifier text = .error (.invalidIdentifier text cause) := by
  obtain ⟨a, ha, rfl⟩ := unit_eq_ok_iff.1 h
  obtain ⟨-, hname, hsubject, -⟩ := adapter_eq_ok_iff.1 ha
  have hcalls : List.Forall₂ (fun c k => k.IsSpelledBy g.callLogger c) e.called a.allCalls :=
    (forall₂_call_allCalls ha).imp fun _ _ => isSpelledBy_of_call
  refine ⟨a, ha, rfl, spells_of_identifier hname, spells_of_identifier hsubject, hcalls,
    fun hidentifiers => ?_, fun text => ?_⟩
  · refine ((List.forall₂_and_left _ _).2 ⟨hidentifiers, hcalls⟩).imp fun c k hboth => ?_
    obtain ⟨hidentifier, hspelled⟩ := hboth
    have hverbatim := hspelled.method.verbatim_iff.2 hidentifier
    exact ⟨hverbatim, hverbatim ▸ hspelled.key⟩
  · exact (identifier_cases text).imp_left fun ⟨name, _, hspells⟩ => ⟨name, hspells⟩

end Generator

namespace Processor

-- A class whose name has a comment in front of it, and whose callbacks are two texts for one
-- identifier.
def padded : Declaration where
  subject := { name := "/* main */Screen" }
  callbacks :=
    [{ declaringClass := { name := "/* main */Screen" }, name := "on_stop", events := [.onStop] },
      { declaringClass := { name := "/* main */Screen" }, name := "on_stop ", events := [.onStop] }]

theorem names_of_unit_padded :
    ∃ g e u a, Generator.ofSettings {} = .ok g ∧ padded.registered? = some e ∧ g.unit e = .ok u ∧
      g.adapter e = .ok a ∧ Spells u.name a.name ∧
      List.Forall₂ (fun c k => k.IsSpelledBy g.callLogger c) e.called a.allCalls := by
  have hcheck : (Generator.ofSettings {}).toOption.any (fun g =>
      padded.registered?.any fun e => (g.unit e).toOption.isSome) = true := by decide +kernel
  obtain ⟨g, hg, e, he, u, hu⟩ := by
    simpa only [Option.any_eq_true, Fallible.toOption_eq_some_iff, Option.isSome_iff_exists]
      using hcheck
  obtain ⟨a, ha, -, hname, -, hcalls, -⟩ := Generator.names_of_unit hu
  exact ⟨g, e, u, a, hg, he, hu, ha, hname, hcalls⟩

-- The name of its source text is not the name of its adapter, and the log takes the two callbacks
-- for different ones although they are called by one name and with the same arguments.
theorem name_ne_unit_name_padded :
    ∃ p u a, ofSettings {} = .ok p ∧ p.outcome padded = .ok (.generated u) ∧
      p.adapter? padded = some a ∧ u.name = "/* main */ScreenLifecycleAdapter" ∧
      a.name = "ScreenLifecycleAdapter" ∧ a.subject = "Screen" ∧
      (a.callsFor .onStop).map (fun k => (k.method, k.kind, k.key)) =
        [("on_stop", .noArgs, some "on_stop"), ("on_stop", .noArgs, some "on_stop ")] ∧
      (dispatchAll [a] .onStop).map List.length = [2] := by
  have hcheck : (ofSettings {}).toOption.any (fun p =>
      (p.unit? padded).any fun u => (p.adapter? padded).any fun a =>
        u.name == "/* main */ScreenLifecycleAdapter" && a.name == "ScreenLifecycleAdapter" &&
        a.subject == "Screen" &&
        (a.callsFor .onStop).map (fun k => (k.method, k.kind, k.key)) ==
          [("on_stop", .noArgs, some "on_stop"), ("on_stop", .noArgs, some "on_stop ")] &&
        (dispatchAll [a] .onStop).map List.length == [2]) = true := by decide +kernel
  obtain ⟨p, hp, u, hu, a, ha, ⟨⟨⟨hname, hself⟩, hsubject⟩, hcalls⟩, hmade⟩ := by
    simpa only [Option.any_eq_true, Fallible.toOption_eq_some_iff, Bool.and_eq_true_iff,
      beq_iff_eq] using hcheck
  exact ⟨p, u, a, hp, unit?_eq_some_iff.1 hu, ha, hname, hself, hsubject, hcalls, hmade⟩

end Processor

end Lifecycle
