import Lifecycle.Proofs.Dispatch
import Lifecycle.Proofs.Session
import Lifecycle.Proofs.SharedLog

namespace Lifecycle

theorem dispatchAll_eq (adapters : List Adapter) {event : Event} (h : event ∈ Event.dispatchable) :
    dispatchAll adapters event = (withEarlier adapters).map fun x =>
      Call.unrepeated (x.1.flatMap (dispatch · event)) (dispatch x.2 event) := by
  have hcalls : (dispatch · event) = (Adapter.callsFor · event) :=
    funext fun a => dispatch_eq_callsFor a h
  simp only [dispatchAll, (Event.mem_dispatchable_iff event).1 h, Bool.false_eq_true, if_false,
    runAll_eq CallLog.Knows.empty, congrFun hcalls, List.nil_append]

theorem flatten_dispatchAll (adapters : List Adapter) {event : Event}
    (h : event ∈ Event.dispatchable) :
    (dispatchAll adapters event).flatten =
      Call.unrepeated [] (adapters.flatMap (dispatch · event)) := by
  rw [dispatchAll_eq adapters h]
  exact flatten_map_unrepeated (dispatch · event) [] adapters

theorem flatten_dispatchAll_onAny (adapters : List Adapter) :
    (dispatchAll adapters .onAny).flatten = [] := by
  simp [dispatchAll, Event.isAny]

-- What a call of a callback tells a log. A guarded call is known by the name of the callback.
structure Call.AskedFor (guarded : Bool) (c : Callback) (k : Call) : Prop where
  method : identifier c.name = .ok k.method
  kind : k.kind = .ofArity c.arity
  key : k.key = if guarded then some c.name else none

theorem askedFor_of_call {g : Generator} {c : Callback} {k : Call} (h : g.call c = .ok k) :
    Call.AskedFor g.callLogger c k := by
  obtain ⟨hmethod, -, hkind, -, hkey⟩ := Generator.call_eq_ok_iff.1 h
  exact ⟨hmethod, hkind, hkey⟩

-- Guarded calls clash if they go to callbacks of one name with parameters for the same arguments.
theorem clashes_iff_of_askedFor {c d : Callback} {k l : Call} (hk : Call.AskedFor true c k)
    (hl : Call.AskedFor true d l) (hc : c.arity ≤ 2) (hd : d.arity ≤ 2) :
    k.Clashes l ↔ c.name = d.name ∧ c.arity = d.arity := by
  simp [Call.Clashes, hk.key, hl.key, hk.kind, hl.kind, CallKind.ofArity_eq_iff hc hd]

-- An adapter, with the generator and the entry it comes from.
structure Generated where
  generator : Generator
  entry : Entry
  adapter : Adapter
  made : generator.adapter entry = .ok adapter

namespace Generated

-- The adapter of an entry, unless the generator fails.
def make? (generator : Generator) (entry : Entry) : Option Generated :=
  match made : generator.adapter entry with
  | .ok adapter => some { generator, entry, adapter, made }
  | .error _ => none

theorem forall₂_askedFor_dispatch (g : Generated) {event : Event}
    (h : event ∈ Event.dispatchable) :
    List.Forall₂ (Call.AskedFor g.generator.callLogger)
      (g.entry.callbacksFor event ++ g.entry.anyCallbacks) (dispatch g.adapter event) := by
  rw [dispatch_eq_callsFor g.adapter h]
  exact (Generator.callsFor_of_adapter g.made (ne_onAny_of_mem_dispatchable h)).imp
    fun c k hcall => askedFor_of_call hcall

end Generated

-- Dispatch to generated adapters makes the calls that dispatch to each of them makes, in turn,
-- without those that an earlier one clashes with. Only guarded calls clash: those of callbacks with
-- the same name that are of the same kind. Each adapter makes its own of these calls. Whatever
-- was dispatched before, observers with these adapters write the same lines. The event that stands
-- for any event calls nothing.
theorem dispatchAll_of_generated (gs : List Generated) :
    (∀ event ∈ Event.dispatchable,
      (∀ g ∈ gs, List.Forall₂ (Call.AskedFor g.generator.callLogger)
        (g.entry.callbacksFor event ++ g.entry.anyCallbacks) (dispatch g.adapter event)) ∧
      (dispatchAll (gs.map (·.adapter)) event).flatten =
        Call.unrepeated [] (gs.flatMap fun g => dispatch g.adapter event) ∧
      dispatchAll (gs.map (·.adapter)) event =
        (withEarlier (gs.map (·.adapter))).map fun x =>
          Call.unrepeated (x.1.flatMap (dispatch · event)) (dispatch x.2 event)) ∧
    (dispatchAll (gs.map (·.adapter)) .onAny).flatten = [] ∧
    ∀ (s : Demo.Session) (before : List Demo.Step) (chosen : List Nat) (what : Demo.Occurrence),
      (chosen.filterMap s.observer?).map (·.adapter) = gs.map (·.adapter) →
        (s.run (before ++ [.dispatchAll chosen what])).getLast?.map (·.1) = some
          { lines := ((chosen.filterMap s.observer?).zip
              (dispatchAll (gs.map (·.adapter)) what.event)).flatMap
                fun (i, calls) => Demo.Session.linesOf what i calls } := by
  refine ⟨fun event hevent => ⟨fun g _ => g.forall₂_askedFor_dispatch hevent, ?_,
    dispatchAll_eq _ hevent⟩, flatten_dispatchAll_onAny _, fun s before chosen what hchosen => ?_⟩
  · rw [flatten_dispatchAll _ hevent, List.flatMap_map]
  · rw [Demo.Session.getLast?_run_append]
    simp only [Demo.Session.step, Demo.Session.observer?_after, hchosen]

namespace Demo.SampleClass

-- The adapter of a sample class, with what it comes from.
def generated? (c : SampleClass) : Option Generated := do
  let processor ← (Processor.ofSettings { callLogger := c.callLogger }).toOption
  Generated.make? processor.generator (← processor.registered? c.declaration)

def generated (c : SampleClass) (h : c.generated?.isSome = true) : Generated :=
  c.generated?.get h

end Demo.SampleClass

-- Two adapters that ask a log, for callbacks of which some have the same name, and one that does not.
def sampleAdapters : List Generated :=
  [Demo.recorder.generated (by decide +kernel), Demo.sibling.generated (by decide +kernel),
    Demo.quiet.generated (by decide +kernel)]

-- A session with adapters as its observers.
def Demo.Session.ofGenerated (gs : List Generated) : Demo.Session where
  observers := gs.mapIdx fun number g =>
    { number, className := g.entry.subject.name, adapter := g.adapter }
  logs := [{}]

theorem dispatchAll_of_generated_samples :
    Event.onStop ∈ Event.dispatchable ∧
      (dispatchAll (sampleAdapters.map (·.adapter)) .onStop).flatten =
        Call.unrepeated [] (sampleAdapters.flatMap fun g => dispatch g.adapter .onStop) ∧
      (dispatchAll (sampleAdapters.map (·.adapter)) .onStop).map (·.map (·.method)) =
        [["stop_first", "stop_second", "visibility", "any"], ["visibility", "any"],
          ["stop_first", "any"]] ∧
      ((Demo.Session.ofGenerated sampleAdapters).run
        [.dispatchAll [0, 1] { event := .onStop }, .run 0 { event := .onStop } (some 0),
          .dispatchAll [0, 1, 2] { event := .onStop }]).getLast?.map (·.1) = some
        { lines := (([0, 1, 2].filterMap (Demo.Session.ofGenerated sampleAdapters).observer?).zip
            (dispatchAll (sampleAdapters.map (·.adapter)) .onStop)).flatMap
              fun (i, calls) => Demo.Session.linesOf { event := .onStop } i calls } := by
  have hmem : Event.onStop ∈ Event.dispatchable := by decide
  have hchosen : ∀ a b c : Generated,
      ([0, 1, 2].filterMap (Demo.Session.ofGenerated [a, b, c]).observer?).map (·.adapter) =
        [a, b, c].map (·.adapter) := fun _ _ _ => rfl
  obtain ⟨hcalls, -, hsession⟩ := dispatchAll_of_generated sampleAdapters
  refine ⟨hmem, (hcalls .onStop hmem).2.1, by decide +kernel, ?_⟩
  exact hsession (Demo.Session.ofGenerated sampleAdapters) [.dispatchAll [0, 1] { event := .onStop },
    .run 0 { event := .onStop } (some 0)] [0, 1, 2] { event := .onStop } (hchosen _ _ _)

-- What holds of all pairs in one list holds of all pairs in a list that is related to it.
theorem pairwise_iff_of_forall₂ {α β : Type} {R : α → β → Prop} {P : α → α → Prop}
    {Q : β → β → Prop} (hPQ : ∀ {a b c d}, R a b → R c d → (P a c ↔ Q b d)) {xs : List α}
    {ys : List β} (h : List.Forall₂ R xs ys) : xs.Pairwise P ↔ ys.Pairwise Q := by
  induction h with
  | nil => simp
  | @cons x y xs ys hxy hrest ih =>
    have hfirst : (∀ z ∈ xs, P x z) ↔ ∀ z ∈ ys, Q y z := by
      clear ih
      induction hrest with
      | nil => simp
      | cons hzw _ ih => simp [hPQ hxy hzw, ih]
    rw [List.pairwise_cons, List.pairwise_cons, hfirst, ih]

-- One adapter on a new log: calls are lost only to earlier calls of the adapter itself.
theorem dispatchAll_singleton (a : Adapter) {event : Event} (h : event ∈ Event.dispatchable) :
    dispatchAll [a] event = [Call.unrepeated [] (dispatch a event)] := by
  rw [dispatchAll_eq [a] h]
  rfl

theorem dispatchAll_singleton_eq_iff (a : Adapter) {event : Event}
    (h : event ∈ Event.dispatchable) :
    dispatchAll [a] event = [dispatch a event] ↔
      (dispatch a event).Pairwise fun k l => ¬ k.Clashes l := by
  rw [dispatchAll_singleton a h, List.singleton_inj, Call.unrepeated_nil_eq_self_iff]

namespace Processor

theorem dispatchAll_eq_dispatch_iff {p : Processor} {d : Declaration} {a : Adapter}
    (hlog : p.generator.callLogger = true) (ha : p.adapter? d = some a) {event : Event}
    (hevent : event ∈ Event.dispatchable) :
    dispatchAll [a] event = [dispatch a event] ↔
      (d.calledFor event).Pairwise fun c e => ¬ (c.name = e.name ∧ c.arity = e.arity) := by
  have hrejected := ((adapter?_eq_some_iff p d a).1 ha).1
  have harity : ∀ c ∈ d.calledFor event, c.arity ≤ 2 := fun c hc =>
    arity_le_two_of_not_rejected hrejected (Declaration.mem_kept_of_mem_calledFor hc)
  have hasked : List.Forall₂ (fun c k => c.arity ≤ 2 ∧ Call.AskedFor true c k) (d.calledFor event)
      (dispatch a event) := (List.forall₂_and_left _ _).2 ⟨harity,
    (forall₂_call_dispatch ha hevent).imp fun c k hcall => hlog ▸ askedFor_of_call hcall⟩
  rw [dispatchAll_singleton_eq_iff a hevent]
  refine (pairwise_iff_of_forall₂ (fun hc he => ?_) hasked).symm
  exact not_congr (clashes_iff_of_askedFor hc.2 he.2 hc.1 he.1).symm

-- With calls that ask a log, an adapter that is dispatched to alone makes all calls for an event
-- exactly if no two of the callbacks that the event calls have the same name and as many parameters.
theorem dispatchAll_of_generated_alone {s : Settings} {p : Processor} {d : Declaration}
    {u : SourceUnit} (hlog : s.callLogger = true) (hp : ofSettings s = .ok p)
    (hu : p.outcome d = .ok (.generated u)) :
    ∃ a, p.adapter? d = some a ∧ u.body = Generator.bodyOf a ∧
      ∀ event ∈ Event.dispatchable,
        (dispatchAll [a] event = [dispatch a event] ↔
          (d.calledFor event).Pairwise fun c e => ¬ (c.name = e.name ∧ c.arity = e.arity)) := by
  obtain ⟨a, ha, rfl⟩ := (outcome_eq_generated_iff_adapter? p d u).1 hu
  obtain ⟨path, -, rfl⟩ := ofSettings_eq_ok_iff.1 hp
  exact ⟨a, ha, rfl, fun event hevent => dispatchAll_eq_dispatch_iff hlog ha hevent⟩

-- A class with callbacks of one name. Those for the start take different numbers of parameters. Those
-- for the stop are told apart by the name of a parameter type only.
def overloaded : Declaration where
  subject := { name := "Screen" }
  callbacks :=
    [{ declaringClass := { name := "Screen" }, name := "on_start", events := [.onStart] },
      { declaringClass := { name := "Screen" }, name := "on_stop", receiver := .mutable
        params := [{ name := "&dyn LifecycleOwner"
                     capabilities := Text.NameSet.ofList ["LifecycleOwner"] }]
        events := [.onStop] },
      { declaringClass := { name := "Base" }, name := "on_start", receiver := .none
        params := [{ name := "LifecycleOwner" }], events := [.onStart] },
      { declaringClass := { name := "Base" }, name := "on_stop", receiver := .none
        params := [{ name := "&dyn vigil_lifecycle::LifecycleOwner"
                     capabilities := Text.NameSet.ofList ["LifecycleOwner"] }]
        events := [.onStop] }]

theorem dispatchAll_of_generated_alone_overloaded :
    ({} : Settings).callLogger = true ∧
      ∃ p u a, ofSettings {} = .ok p ∧ p.outcome overloaded = .ok (.generated u) ∧
        p.adapter? overloaded = some a ∧ u.body = Generator.bodyOf a ∧
        dispatchAll [a] .onStart = [dispatch a .onStart] ∧
        (overloaded.calledFor .onStart).map (·.name) = ["on_start", "on_start"] := by
  obtain ⟨p, u, hp, hu⟩ := exists_generated (s := {}) (d := overloaded) (by decide +kernel)
  obtain ⟨a, ha, hbody, hcalls⟩ := dispatchAll_of_generated_alone rfl hp hu
  exact ⟨rfl, p, u, a, hp, hu, ha, hbody, (hcalls .onStart (by decide)).2 (by decide +kernel),
    by decide +kernel⟩

-- The second callback for the stop is kept and dispatched to, and lost on a log of its own.
theorem dispatchAll_ne_dispatch_overloaded :
    ∃ p u a, ofSettings { callLogger := true } = .ok p ∧
      p.outcome overloaded = .ok (.generated u) ∧ p.adapter? overloaded = some a ∧
      u.body = Generator.bodyOf a ∧ Event.onStop ∈ Event.dispatchable ∧
      (dispatch a .onStop).length = 2 ∧ dispatchAll [a] .onStop ≠ [dispatch a .onStop] := by
  obtain ⟨p, u, hp, hu⟩ := exists_generated (s := { callLogger := true }) (d := overloaded)
    (by decide +kernel)
  obtain ⟨a, ha, rfl⟩ := (outcome_eq_generated_iff_adapter? p overloaded u).1 hu
  have hlog : p.generator.callLogger = true := by
    obtain ⟨path, -, rfl⟩ := ofSettings_eq_ok_iff.1 hp
    rfl
  have hmem : Event.onStop ∈ Event.dispatchable := by decide
  have htwo : (overloaded.calledFor .onStop).length = 2 := by decide +kernel
  refine ⟨p, _, a, hp, hu, ha, rfl, hmem, (forall₂_call_dispatch ha hmem).length_eq ▸ htwo, ?_⟩
  rw [ne_eq, dispatchAll_eq_dispatch_iff hlog ha hmem]
  decide +kernel

end Processor

end Lifecycle
