import Lifecycle.Manifest
import Lifecycle.Observer.Options
import Lifecycle.Proofs.Expansion
import Lifecycle.Proofs.Grammar.Parsing.Code
import Lifecycle.Proofs.Places
import Lifecycle.Proofs.Refusals

namespace Lifecycle

open Text Code Lifecycle.Tree Lifecycle.Parser Lifecycle.Grammar

theorem isWritable_iff (name : String) : isWritable name = true ↔ IsName name.toList := by
  unfold isWritable
  split
  · rename_i cs hcs
    have hmark : isIdentifier ('r' :: '#' :: cs) = false := by
      simp [isIdentifier, isIdentifierRest]
    simp [hcs, IsName, hmark]
  · rename_i hplain
    have hnot : ¬ ∃ id, name.toList = 'r' :: '#' :: id ∧ isIdentifier id = true ∧
        id ∉ Lexer.neverRaw := by
      rintro ⟨id, hid, -⟩
      exact hplain id hid
    exact ⟨.inl, fun h => h.resolve_right hnot⟩

-- The names that the path of the runtime consists of.
def runtimeNames : Option FoundPackage → Option FoundPackage → List String
  | some .itself, _ => [runtimePackage]
  | some (.named name), _ => [name]
  | none, some .itself => [umbrellaPackage, runtimePackage]
  | none, some (.named name) => [name, runtimePackage]
  | none, none => [runtimePackage]

-- The name of the dependency that the path starts with, if it starts with one.
def dependencyName? : Option FoundPackage → Option FoundPackage → Option String
  | some (.named name), _ => some name
  | none, some (.named name) => some name
  | _, _ => none

variable {runtime umbrella : Option FoundPackage} {text first : String} {more : List String}

theorem locateRuntime_eq_some_iff :
    locateRuntime runtime umbrella = some text ↔
      (∀ name ∈ runtimeNames runtime umbrella, IsName name.toList) ∧
        text = Tree.text (Code.joined (runtimeNames runtime umbrella)) := by
  have heq : locateRuntime runtime umbrella =
      if (runtimeNames runtime umbrella).all isWritable then
        some (Tree.text (Code.joined (runtimeNames runtime umbrella)))
      else none := by
    rcases runtime with - | (- | name) <;> rcases umbrella with - | (- | name) <;> rfl
  simp only [heq, Option.ite_none_right_eq_some, Option.some.injEq, List.all_eq_true,
    isWritable_iff]
  exact and_congr_right fun _ => eq_comm

-- Only the name of a dependency can be no segment, and it stands at the front.
theorem exists_runtimeNames (runtime umbrella : Option FoundPackage) :
    ∃ first more, runtimeNames runtime umbrella = first :: more ∧ (∀ n ∈ more, IsSegment n) ∧
      (IsSegment first ↔ ∀ name ∈ dependencyName? runtime umbrella, IsSegment name) ∧
      ∀ name ∈ dependencyName? runtime umbrella, name = first := by
  have hruntime : IsSegment runtimePackage := .inl (by decide)
  have humbrella : IsSegment umbrellaPackage := .inl (by decide)
  rcases runtime with - | (- | name) <;> rcases umbrella with - | (- | name') <;>
    exact ⟨_, _, rfl, by simp [hruntime], by simp [dependencyName?, hruntime, humbrella],
      by simp [dependencyName?]⟩

theorem exists_read?_joined (h : ∀ name ∈ first :: more, IsName name.toList) :
    ∃ found, Tree.read? (Tree.text (Code.joined (first :: more))).toList = some found ∧
      bare found = Code.joined (first :: more) := by
  have hmade : MadeWith [] (Code.joined (first :: more)) := .joined h
  have hneat : Neat (Code.joined (first :: more)) := hmade.to_neat .nil
  obtain ⟨c, rest, hc, hstart⟩ := (h first List.mem_cons_self).exists_start
  obtain ⟨cs, hchars⟩ : ∃ cs, render (Code.joined (first :: more)) ++ [] = c :: cs := by
    rw [Call.joined_eq, Code.word, List.singleton_append, render_cons]
    simp [Tree.word, chars, hc]
  obtain ⟨found, hfound, hbare⟩ := hneat.legible.exists_read?_render stops_nil
    (fun _ => .done) (identifierStart_ne hstart (by decide +kernel)) hchars
  rw [hneat.retold_eq_bare, bare_joined] at hbare
  refine ⟨found, ?_, hbare⟩
  rw [Tree.text, String.toList_ofList]
  simpa using hfound

-- Names that are joined by `::` are read as a path of these names.
theorem parses_path_joined {g : Level} (hfirst : IsSegment first) (hmore : ∀ n ∈ more, IsSegment n) :
    Parses (path g false) (Code.joined (first :: more)) []
      fun p => bare p.tokens = Code.joined (first :: more) := by
  have hends : ∀ names, NoArguments (moreNames names ++ []) := by
    intro names
    cases names with
    | nil => exact ⟨rfl, by simp [moreNames]⟩
    | cons n names => exact noArguments_moreNames n names []
  have hrest : Parses (moreSegments g false) (moreNames more ++ []) []
      fun ss => bare (ss.flatMap fun s => Path.separator ++ s.tokens) = moreNames more := by
    refine .bind (Loops.parses (Loops.list (I := fun before done =>
      bare (done.reverse.flatMap fun s => Path.separator ++ s.tokens) = moreNames before)
      ?_ ?_ ?_) _ (by simp [moreNames])) fun done hdone => .pure hdone
    · simp [colons, op2, Tree.operator]
    · intro before name todo done hall hdone
      have hname : IsSegment name := hmore name (by simp [← hall])
      refine .peek (.peekAt (.yes ?_ (.bind (.op2 _ _ _) fun _ _ => ?_)))
      · simp [colons, op2, Tree.operator, Code.word, Tree.word, isGroup]
      · refine .bind (parses_segment_tokens hname (hends todo)) fun s hs => .pure ⟨_, rfl, ?_⟩
        have hseparator : bare Path.separator = colons := bare_colons
        rw [moreNames_append, ← hdone, List.reverse_cons, List.flatMap_append, bare_append]
        simp [bare_append, hs, hseparator, moreNames, Code.word, Tree.word]
    · exact .stop (fun done _ => .peek (.peekAt (.no rfl (.pure rfl)))) fun _ h => h
  rw [Call.joined_eq, ← List.append_nil (moreNames more)]
  refine .bind (.opOpt_none (by simp [Code.word, Tree.word])) fun leading hleading => ?_
  refine .bind (parses_segment_tokens hfirst (hends more)) fun s hs => ?_
  refine .bind hrest fun ss hss => .pure ?_
  simp [Path.tokens, hleading, bare_append, hs, hss, Code.word, Tree.word]

-- A word that is no segment starts no path.
theorem path_run_of_not_isSegment (g : Level) (inExpr : Bool) {c : Cursor} {name : Ident}
    {rest : List Tree} (hc : c.trees = .ident name :: rest) (h : ¬ IsSegment name.text) :
    (path g inExpr).run c = .error { complaint := .keyword name.text, pos := name.pos } := by
  obtain ⟨hkeyword, hword⟩ : name.text ∈ keywords ∧ name.text ∉ pathWords := by
    simpa [IsSegment] using h
  have hleading : (opOpt [':', ':']).run c = .ok ([], c) := by
    rw [opOpt, peek_bind_run, hc]
    rfl
  have hident : Parser.ident.run c = .error { complaint := .keyword name.text, pos := name.pos } := by
    simp only [Parser.ident, get_bind_run, hc]
    rw [if_pos (by simpa using hkeyword), failWith_run, Cursor.pos, hc]
    rfl
  have hsegment : (Grammar.segment g inExpr).run c =
      .error { complaint := .keyword name.text, pos := name.pos } := by
    rw [Grammar.segment, peek_bind_run, if_neg (by simpa [hc, isWordOf] using hword),
      StateT.run_bind, hident]
    rfl
  rw [path, StateT.run_bind, hleading]
  change ((Grammar.segment g inExpr).run c >>= _) = _
  rw [hsegment]
  rfl

section Joined

variable (h : ∀ name ∈ first :: more, IsName name.toList)

include h

theorem exists_runtimePath_joined (hfirst : IsSegment first) (hmore : ∀ n ∈ more, IsSegment n) :
    ∃ p, runtimePath (Tree.text (Code.joined (first :: more))) = .ok p ∧
      Tree.text p.tokens = Tree.text (Code.joined (first :: more)) := by
  obtain ⟨found, hfound, hbare⟩ := exists_read?_joined h
  obtain ⟨p, hall, hp⟩ := (parses_path_joined hfirst hmore).all_eq_ok hbare {}
  refine ⟨p, ?_, text_eq_of_bare_eq (by rw [hp, bare_joined])⟩
  simp only [runtimePath, parseText, hfound, parseTrees]
  rw [hall]

theorem runtimePath_joined_of_not_isSegment (hfirst : ¬ IsSegment first) :
    runtimePath (Tree.text (Code.joined (first :: more))) =
      .error (.invalidRuntimePath (Tree.text (Code.joined (first :: more))) (.keyword first)) := by
  obtain ⟨found, hfound, hbare⟩ := exists_read?_joined h
  rw [Call.joined_eq, Code.word, List.singleton_append] at hbare
  obtain ⟨pos, rest, hc, -⟩ := of_bare_eq_ident hbare
  have hrun := path_run_of_not_isSegment (Level.ofTrees found) false (c := { trees := found }) hc
    hfirst
  simp only [runtimePath, parseText, hfound, parseTrees, Parser.all, hrun]
  rfl

end Joined

theorem Generator.ofSettings_of_runtimePath {s : Settings} {p : Path}
    (h : runtimePath s.runtimePath = .ok p) :
    Generator.ofSettings s =
      .ok { runtime := p, adapterSuffix := s.adapterSuffix, callLogger := s.callLogger } := by
  simp only [Generator.ofSettings, h]
  rfl

theorem Generator.ofSettings_of_runtimePath_error {s : Settings} {why : GenerationError}
    (h : runtimePath s.runtimePath = .error why) : Generator.ofSettings s = .error why := by
  simp only [Generator.ofSettings, h]
  rfl

-- Once there is a processor, no class is refused for the path of the runtime.
theorem Processor.outcome_ne_invalidRuntimePath (p : Processor) (d : Declaration) (path : String)
    (cause : Complaint) : p.outcome d ≠ .error (.invalidRuntimePath path cause) := by
  by_cases hrejected : p.rules.rejected d.kept = []
  · by_cases hnone : d.callbacks = []
    · simp [outcome_of_no_callbacks p hnone]
    · obtain ⟨entry, hentry⟩ := Declaration.exists_registered? hnone
      rw [outcome_of_accepted hrejected hentry]
      intro h
      cases hunit : p.generator.unit entry with
      | ok u => simp [hunit, Except.map] at h
      | error why =>
        obtain rfl : why = .invalidRuntimePath path cause := by simpa [hunit, Except.map] using h
        exact Generator.unit_ne_invalidRuntimePath p.generator hentry path cause hunit
  · simp [outcome_of_rejected hrejected]

-- The path that is found for the runtime is accepted and printed as it was found, and it is never the
-- reason to refuse an observer that names no other, unless the path starts with a dependency that has
-- the name of a keyword which is no path segment. Then every generator refuses it.
theorem ofSettings_of_locateRuntime (h : locateRuntime runtime umbrella = some text) :
    ((∀ name ∈ dependencyName? runtime umbrella, IsSegment name) →
      ∃ p, Tree.text p.tokens = text ∧
        (∀ s : Settings, s.runtimePath = text →
          ∃ g, Generator.ofSettings s = .ok g ∧ g.runtime = p) ∧
        ∀ o : ObserverOptions, o.runtime = none →
          ∃ processor, Processor.ofSettings (o.settings text) = .ok processor ∧
            ∀ d path cause, processor.outcome d ≠ .error (.invalidRuntimePath path cause)) ∧
    ∀ name ∈ dependencyName? runtime umbrella, ¬ IsSegment name →
      ∀ s : Settings, s.runtimePath = text →
        Generator.ofSettings s = .error (.invalidRuntimePath text (.keyword name)) := by
  obtain ⟨hnames, htext⟩ := locateRuntime_eq_some_iff.1 h
  obtain ⟨first, more, heq, hmore, hfirst, hdependency⟩ := exists_runtimeNames runtime umbrella
  rw [heq] at hnames htext
  subst htext
  constructor
  · intro hsegment
    obtain ⟨p, hp, hprinted⟩ := exists_runtimePath_joined hnames (hfirst.2 hsegment) hmore
    refine ⟨p, hprinted, fun s hs => ?_, fun o ho => ?_⟩
    · exact ⟨_, Generator.ofSettings_of_runtimePath (by rw [hs]; exact hp), rfl⟩
    · have hpath : (o.settings (Tree.text (Code.joined (first :: more)))).runtimePath =
          Tree.text (Code.joined (first :: more)) := by
        simp [ObserverOptions.settings, ho]
      exact ⟨_, Processor.ofSettings_eq_ok_iff.2 ⟨p, by rw [hpath]; exact hp, rfl⟩,
        Processor.outcome_ne_invalidRuntimePath _⟩
  · intro name hname hkeyword s hs
    obtain rfl := hdependency name hname
    refine Generator.ofSettings_of_runtimePath_error ?_
    rw [hs]
    exact runtimePath_joined_of_not_isSegment hnames hkeyword

theorem ofSettings_of_locateRuntime_samples :
    (locateRuntime none (some (.named "größen_vigil")) = some "größen_vigil :: vigil_lifecycle" ∧
      ∃ p, Tree.text p.tokens = "größen_vigil :: vigil_lifecycle" ∧
        (∀ s : Settings, s.runtimePath = "größen_vigil :: vigil_lifecycle" →
          ∃ g, Generator.ofSettings s = .ok g ∧ g.runtime = p) ∧
        ∃ processor,
          Processor.ofSettings (({} : ObserverOptions).settings "größen_vigil :: vigil_lifecycle") =
              .ok processor ∧
            ∀ d path cause, processor.outcome d ≠ .error (.invalidRuntimePath path cause)) ∧
    locateRuntime (some (.named "type")) none = some "type" ∧
      Generator.ofSettings { runtimePath := "type" } =
        .error (.invalidRuntimePath "type" (.keyword "type")) := by
  have hfound : locateRuntime none (some (.named "größen_vigil")) =
      some "größen_vigil :: vigil_lifecycle" := by decide +kernel
  have hkeyword : locateRuntime (some (.named "type")) none = some "type" := by decide +kernel
  have hsegment : ∀ name ∈ dependencyName? none (some (.named "größen_vigil")), IsSegment name := by
    rintro name ⟨⟩
    exact .inl (by decide)
  obtain ⟨p, hprinted, haccepted, hobserver⟩ := (ofSettings_of_locateRuntime hfound).1 hsegment
  exact ⟨⟨hfound, p, hprinted, haccepted, hobserver {} rfl⟩, hkeyword,
    (ofSettings_of_locateRuntime hkeyword).2 "type" rfl
      (not_or.2 ⟨by decide, by decide⟩) _ rfl⟩

-- A package that knows the runtime under the name of a keyword.
def renamedToKeyword : Manifest where
  package := some "app"
  dependencies := [{ key := "type", package := some runtimePackage }]

-- The name is found, and it is no path.
theorem runtimePath_renamedToKeyword_ne_ok :
    ∃ text, runtimeOf (some renamedToKeyword) = some text ∧ ∀ p, runtimePath text ≠ .ok p := by
  have hcheck : runtimeOf (some renamedToKeyword) = some "type" ∧
      (runtimePath "type").toOption.isNone = true := by decide +kernel
  refine ⟨"type", hcheck.1, fun p hp => ?_⟩
  have hnone := hcheck.2
  rw [hp] at hnone
  cases hnone

end Lifecycle
