import Lifecycle.Proofs.Code
import Lifecycle.Proofs.Grammar.Parsing.Code
import Lifecycle.Proofs.Outcome
import Lifecycle.Proofs.Places

namespace Lifecycle

open Text Lifecycle.Tree Lifecycle.Parser Lifecycle.Grammar

namespace Path

-- Whether a path may stand as a type, as a pattern and as an expression: it has no arguments, and does
-- not start with the word of a block.
def fitsAnywhere (p : Path) : Bool :=
  p.isPlain && !(p.leading.isEmpty && p.first.name.text == "try")

-- The path of these names without places.
def ofNames (root : List Tree) (first : String) (more : List String) : Path where
  leading := root
  first := { name := { text := first } }
  rest := more.map fun name => { name := { text := name } }

theorem tokens_ofNames (root : List Tree) (first : String) (more : List String) :
    (ofNames root first more).tokens = pathFrom root first (moreNames more) := by
  have hrest : (ofNames root first more).rest.flatMap (fun s => separator ++ s.tokens) =
      moreNames more := by
    simp only [ofNames, List.flatMap_map, moreNames]
    rfl
  rw [tokens, hrest]
  simp [ofNames, Segment.tokens, Arguments.tokens]

end Path

-- The names of such a path, and its code without places.
theorem exists_plainPath_of_runtimePath {text : String} {p : Path} (h : runtimePath text = .ok p)
    (hfits : p.fitsAnywhere = true) :
    ∃ root first more, PlainPath root first more ∧ namesOf p.segments = first :: more ∧
      bare p.tokens = (Path.ofNames root first more).tokens := by
  obtain ⟨hplain, htry⟩ := Bool.and_eq_true_iff.1 hfits
  obtain ⟨g, _, c, c', -, hrun⟩ := exists_run_of_runtimePath h
  have hsegments := yields_path_isSegment g false c p c' hrun
  have hroot : IsRoot (bare p.leading) := by
    obtain hnil | ⟨pos, hcolons⟩ := leading_of_path hrun
    · exact .inl (by simp [hnil])
    · exact .inr (by simp [hcolons, Tree.operator, bare, Code.colons, Code.op2])
  refine ⟨bare p.leading, p.first.name.text, namesOf p.rest, ⟨hroot, ?_, ?_⟩, rfl, ?_⟩
  · have hall : ∀ n ∈ namesOf p.segments, IsSegment n := by simpa [namesOf] using hsegments
    exact hall
  · intro hleading heq
    simp [bare_eq_nil_iff.1 hleading, heq] at htry
  · have htokens : ∀ s ∈ p.segments, s.tokens = [.ident s.name] := fun s hs =>
      Segment.tokens_of_isNone (List.all_eq_true.1 hplain s hs)
    obtain ⟨hfirst, hrest⟩ := List.forall_mem_cons.1 htokens
    have hmore : bare (p.rest.flatMap fun s => Path.separator ++ s.tokens) =
        moreNames (namesOf p.rest) := by
      rw [bare_flatMap, moreNames, namesOf, List.flatMap_map]
      refine List.flatMap_congr fun s hs => ?_
      simp [hrest s hs, bare, Path.separator, Tree.operator, Code.colons, Code.op2, Code.word,
        Tree.word]
    rw [Path.tokens_ofNames, Path.tokens, bare_append, bare_append, hfirst, hmore]
    simp [bare]

-- The text below its first line.
def SourceUnit.code (u : SourceUnit) : String :=
  String.ofList ((u.body.toList.dropWhile (· ≠ '\n')).drop 1)

namespace Generator

theorem toList_code {u : SourceUnit} {a : Adapter} (h : u.body = bodyOf a) :
    u.code.toList = Tree.render a.tokens ++ ['\n'] := by
  have hheader : ∀ c ∈ '/' :: '/' :: headerText, decide (c ≠ '\n') = true := by decide
  rw [SourceUnit.code, String.toList_ofList, h, toList_bodyOf,
    List.dropWhile_append_of_pos hheader]
  rfl

theorem body_eq {u : SourceUnit} {a : Adapter} (h : u.body = bodyOf a) :
    u.body = generatedHeader ++ "\n" ++ u.code := by
  rw [← String.toList_inj, String.toList_append, toList_code h, h]
  simp [bodyOf, Tree.text]

-- The text of an adapter is read as its code.
theorem exists_read?_code {u : SourceUnit} {a : Adapter} (h : u.body = bodyOf a) (ha : a.Named)
    (hruntime : Neat a.runtime.tokens) :
    ∃ found, Tree.read? u.code.toList = some found ∧ bare found = bare a.tokens := by
  obtain ⟨trees, htrees⟩ : ∃ trees, a.tokens = .punct '#' false {} :: trees := ⟨_, rfl⟩
  have hneat : Neat a.tokens := ha.tokens.to_neat hruntime
  have hchars : ∃ cs, render a.tokens ++ ['\n'] = '#' :: cs := by
    rw [htrees, render_cons]
    exact ⟨_, rfl⟩
  obtain ⟨cs, hcs⟩ := hchars
  have hend : ∀ pos, Lexer.Lexes pos ['\n'] [] := fun _ => .skip (n := 0) rfl .done
  rw [toList_code h, ← hneat.retold_eq_bare]
  exact hneat.legible.exists_read?_render (stops_cons [] (.inr (.inr (.inr rfl)))) hend (by decide) hcs

-- What is generated is read as a structure and two implementations: of the trait of adapters, for the
-- adapter, and of the trait of observers, for the class.
theorem parseText_code_of_unit {s : Settings} {g : Generator} {e : Entry} {u : SourceUnit}
    (hg : ofSettings s = .ok g) (hfits : g.runtime.fitsAnywhere = true) (hu : g.unit e = .ok u) :
    u.body = generatedHeader ++ "\n" ++ u.code ∧ ∃ a item dispatch observer,
      g.adapter e = .ok a ∧ parseText adapterItems u.code = .ok (item, dispatch, observer) ∧
        IsImplOf (namesOf g.runtime.segments ++ ["GeneratedAdapter"]) [a.name] dispatch ∧
        IsImplOf (namesOf g.runtime.segments ++ ["LifecycleObserver"]) [a.subject] observer := by
  obtain ⟨a, ha, hu⟩ := unit_eq_ok_iff.1 hu
  have hbody : u.body = bodyOf a := by rw [hu]
  obtain ⟨-, -, -, -, -, -, hruntime, -⟩ := adapter_eq_ok_iff.1 ha
  obtain ⟨path, hpath, hpure⟩ := Fallible.bind_eq_ok_iff.1 hg
  obtain rfl := Except.ok.inj hpure
  obtain ⟨root, first, more, hplain, hnames, hbare⟩ := exists_plainPath_of_runtimePath hpath hfits
  have hnamed : a.Named := named_of_adapter ha
  have hneat : Neat a.runtime.tokens := by
    rw [hruntime]
    exact neat_of_runtimePath hpath (Bool.and_eq_true_iff.1 hfits).1
  obtain ⟨found, hfound, hbareFound⟩ := exists_read?_code hbody hnamed hneat
  have htokens : bare found = (a.withRuntime (.ofNames root first more)).tokens := by
    rw [hbareFound]
    exact Adapter.bare_tokens (hruntime ▸ hbare)
  have hparses := (hnamed.withRuntime (.ofNames root first more)).parses_tokens
    (n := 16 * Tree.sizes found + 3) hplain (Path.tokens_ofNames root first more)
  obtain ⟨⟨item, dispatch, observer⟩, hall, hdispatch, hobserver⟩ := hparses.all_eq_ok htokens {}
  refine ⟨body_eq hbody, a, item, dispatch, observer, ha, ?_, ?_, ?_⟩
  · unfold parseText
    rw [hfound]
    exact hall
  · rw [hnames]
    exact hdispatch
  · rw [hnames]
    exact hobserver

-- A class with one callback.
def stopped : Declaration where
  subject := { name := "Screen" }
  callbacks := [{ declaringClass := { name := "Screen" }, name := "on_stop", events := [.onStop] }]

theorem parseText_code_of_unit_stopped :
    ∃ g e u, ofSettings {} = .ok g ∧ g.runtime.fitsAnywhere = true ∧
      stopped.registered? = some e ∧ g.unit e = .ok u ∧
      u.body = generatedHeader ++ "\n" ++ u.code ∧ ∃ a item dispatch observer,
        g.adapter e = .ok a ∧ parseText adapterItems u.code = .ok (item, dispatch, observer) ∧
          IsImplOf (namesOf g.runtime.segments ++ ["GeneratedAdapter"]) [a.name] dispatch ∧
          IsImplOf (namesOf g.runtime.segments ++ ["LifecycleObserver"]) [a.subject] observer := by
  have hcheck : (ofSettings {}).toOption.any (fun g => g.runtime.fitsAnywhere &&
      stopped.registered?.any fun e => (g.unit e).toOption.isSome) = true := by decide +kernel
  obtain ⟨g, hg, hfits, e, he, u, hu⟩ := by
    simpa only [Option.any_eq_true, Fallible.toOption_eq_some_iff, Option.isSome_iff_exists,
      Bool.and_eq_true_iff] using hcheck
  exact ⟨g, e, u, hg, hfits, he, hu, parseText_code_of_unit hg hfits hu⟩

-- The text is not read if the path of the runtime has arguments: it stands in a pattern and in an
-- expression, where a sign for less does not open any.
theorem parseText_code_stopped_ne_ok :
    ∃ g e u, ofSettings { runtimePath := "a<b>" } = .ok g ∧ stopped.registered? = some e ∧
      g.unit e = .ok u ∧ ∀ r, parseText adapterItems u.code ≠ .ok r := by
  have hcheck : (ofSettings { runtimePath := "a<b>" }).toOption.any (fun g =>
      stopped.registered?.any fun e => (g.adapter e).toOption.any fun a =>
        (Tree.read? (render a.tokens ++ ['\n'])).any fun trees =>
          (parseTrees adapterItems trees {}).toOption.isNone) = true := by decide +kernel
  obtain ⟨g, hg, e, he, a, ha, trees, htrees, hfails⟩ := by
    simpa only [Option.any_eq_true, Fallible.toOption_eq_some_iff] using hcheck
  obtain ⟨u, hu, hbody⟩ : ∃ u, g.unit e = .ok u ∧ u.body = bodyOf a :=
    ⟨_, unit_eq_ok_iff.2 ⟨a, ha, rfl⟩, rfl⟩
  refine ⟨g, e, u, hg, he, hu, fun r hr => ?_⟩
  have hparsed : parseTrees adapterItems trees {} = .ok r := by
    simpa only [parseText, toList_code hbody, htrees] using hr
  rw [hparsed] at hfails
  cases hfails

end Generator

end Lifecycle
