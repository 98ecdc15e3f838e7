import Lifecycle.Dispatch
import Lifecycle.Proofs.Adapter
import Lifecycle.Proofs.Outcome
import Mathlib.Data.List.Perm.Subperm

namespace Lifecycle

namespace Declaration

-- The callbacks of a class that an event calls, in the order of the calls.
def calledFor (d : Declaration) (event : Event) : List Callback :=
  d.kept.filter (·.Names event) ++ d.kept.filter (·.TakesAny)

-- A callback that is declared for any event is not called by name as well, and a name that is
-- declared twice counts once.
theorem calledFor_subperm_kept (d : Declaration) (event : Event) :
    (d.calledFor event).Subperm d.kept := by
  have hany : (d.kept.filter (·.TakesAny)).Sublist
      (d.kept.filter fun c => !decide (c.Names event)) := by
    refine List.monotone_filter_right d.kept fun c hc => ?_
    simp only [decide_eq_true_eq, Bool.not_eq_eq_eq_not, Bool.not_true, decide_eq_false_iff_not]
      at hc ⊢
    rintro ⟨hne, hnot, -⟩
    exact hc.elim hne hnot
  exact (hany.append_left _).subperm.trans (List.filter_append_perm _ d.kept).subperm

theorem mem_kept_of_mem_calledFor {d : Declaration} {event : Event} {c : Callback}
    (h : c ∈ d.calledFor event) : c ∈ d.kept :=
  (d.calledFor_subperm_kept event).subset h

theorem callbacksFor_registered? {d : Declaration} {entry : Entry} (h : d.registered? = some entry)
    (event : Event) :
    entry.callbacksFor event = d.kept.filter fun c => event ∈ boundEvents c.events := by
  obtain ⟨-, rfl⟩ := (Registry.toEntry_eq_some_iff _ _).1 h
  rw [Entry.callbacksFor, Registry.callbacksFor_ofAcceptances, List.filter_map, List.map_map]
  exact List.map_id _

-- What an entry holds for an event and for any event are the callbacks that the event calls.
theorem callbacksFor_append_anyCallbacks {d : Declaration} {entry : Entry}
    (h : d.registered? = some entry) {event : Event} (hevent : event ≠ .onAny) :
    entry.callbacksFor event ++ entry.anyCallbacks = d.calledFor event := by
  rw [Entry.anyCallbacks, callbacksFor_registered? h, callbacksFor_registered? h]
  simp only [Callback.mem_boundEvents_iff _ hevent, Callback.onAny_mem_boundEvents_iff]
  rfl

end Declaration

-- Dispatch makes all calls for the event, unless it stands for any event.
theorem dispatch_eq_callsFor (a : Adapter) {event : Event} (h : event ∈ Event.dispatchable) :
    dispatch a event = a.callsFor event := by
  simp [dispatch, (Event.mem_dispatchable_iff event).1 h, Adapter.run]

theorem ne_onAny_of_mem_dispatchable {event : Event} (h : event ∈ Event.dispatchable) :
    event ≠ .onAny := by
  rintro rfl
  simp [Event.dispatchable] at h

theorem dispatch_unguarded (a : Adapter) (event : Event) :
    dispatch a.unguarded event = (dispatch a event).map Call.unguarded := by
  cases h : event.isAny <;> simp [dispatch, h, Adapter.run, Adapter.callsFor_unguarded]

-- A call of a callback when an event is dispatched. It passes on as many of owner and event as the
-- callback has parameters, and no parameter is left without an argument.
structure Call.Serves (event : Event) (c : Callback) (k : Call) : Prop where
  method : identifier c.name = .ok k.method
  onObject : c.receiver ≠ .none → k.callee = .receiver
  byPath : c.receiver = .none →
    ∃ path, Generator.classPath c.declaringClass = .ok path ∧ k.callee = .path path
  arguments : k.arguments event = [CallArgument.owner, .event event].take c.arity
  length_arguments : (k.arguments event).length = c.arity

theorem arguments_ofArity {k : Call} {arity : Nat} (hkind : k.kind = .ofArity arity)
    (harity : arity ≤ 2) (event : Event) :
    k.arguments event = [CallArgument.owner, .event event].take arity ∧
      (k.arguments event).length = arity := by
  match arity with
  | 0 => simp [Call.arguments, hkind, CallKind.ofArity]
  | 1 => simp [Call.arguments, hkind, CallKind.ofArity]
  | 2 => simp [Call.arguments, hkind, CallKind.ofArity]
  | _ + 3 => omega

theorem serves_of_call {g : Generator} {c : Callback} {k : Call} (h : g.call c = .ok k)
    (harity : c.arity ≤ 2) (event : Event) : Call.Serves event c k := by
  obtain ⟨hmethod, hcallee, hkind, -, -⟩ := Generator.call_eq_ok_iff.1 h
  obtain ⟨harguments, hlength⟩ := arguments_ofArity hkind harity event
  refine ⟨hmethod, fun hreceiver => ?_, fun hreceiver => ?_, harguments, hlength⟩
  · cases hr : c.receiver with
    | none => exact absurd hr hreceiver
    | shared => simpa [Generator.callee, hr, pure, Except.pure, eq_comm] using hcallee
    | mutable => simpa [Generator.callee, hr, pure, Except.pure, eq_comm] using hcallee
  · simp only [Generator.callee, hreceiver] at hcallee
    obtain ⟨path, hpath, hk⟩ := Fallible.bind_eq_ok_iff.1 hcallee
    exact ⟨path, hpath, (Except.ok.inj hk).symm⟩

theorem arity_le_two_of_not_rejected {r : Rules} {callbacks : List Callback}
    (h : r.rejected callbacks = []) {c : Callback} (hc : c ∈ callbacks) : c.arity ≤ 2 := by
  have hall : r.rejects c = false := by
    simpa [Rules.rejected] using List.filter_eq_nil_iff.1 h c hc
  have hmany : r.breaks c.params .tooManyArguments = false := by
    by_contra hbreaks
    simp [Rules.rejects, Violation.all, hbreaks] at hall
  simpa [Rules.breaks, Callback.arity] using hmany

namespace Processor

theorem forall₂_call_dispatch {p : Processor} {d : Declaration} {a : Adapter}
    (ha : p.adapter? d = some a) {event : Event} (hevent : event ∈ Event.dispatchable) :
    List.Forall₂ (fun c k => p.generator.call c = .ok k) (d.calledFor event) (dispatch a event) := by
  obtain ⟨-, entry, hentry, hadapter⟩ := (adapter?_eq_some_iff p d a).1 ha
  have hne := ne_onAny_of_mem_dispatchable hevent
  rw [dispatch_eq_callsFor a hevent, ← Declaration.callbacksFor_append_anyCallbacks hentry hne]
  exact Generator.callsFor_of_adapter hadapter hne

-- The calls that the adapter of a class makes serve the callbacks that the event calls.
theorem forall₂_serves_dispatch {p : Processor} {d : Declaration} {a : Adapter}
    (ha : p.adapter? d = some a) {event : Event} (hevent : event ∈ Event.dispatchable) :
    List.Forall₂ (Call.Serves event) (d.calledFor event) (dispatch a event) := by
  have hrejected := ((adapter?_eq_some_iff p d a).1 ha).1
  have harity : ∀ c ∈ d.calledFor event, c.arity ≤ 2 := fun c hc =>
    arity_le_two_of_not_rejected hrejected (Declaration.mem_kept_of_mem_calledFor hc)
  have hboth := (List.forall₂_and_left _ _).2 ⟨harity, forall₂_call_dispatch ha hevent⟩
  exact hboth.imp fun c k h => serves_of_call h.2 h.1 event

-- An event calls what is declared for it, whether or not calls ask a log, and it calls nothing else.
theorem dispatch_of_generated {s : Settings} {p : Processor} {d : Declaration} {u : SourceUnit}
    (hp : ofSettings s = .ok p) (hu : p.outcome d = .ok (.generated u)) :
    ∃ a, p.adapter? d = some a ∧ u.body = Generator.bodyOf a ∧
      (∀ event ∈ Event.dispatchable,
        List.Forall₂ (Call.Serves event) (d.calledFor event) (dispatch a event) ∧
          (d.calledFor event).Subperm d.kept) ∧
      dispatch a .onAny = [] ∧
      ∀ callLogger, ∃ q v b, ofSettings { s with callLogger } = .ok q ∧
        q.outcome d = .ok (.generated v) ∧ q.adapter? d = some b ∧ v.body = Generator.bodyOf b ∧
          ∀ event, (dispatch b event).map Call.unguarded = (dispatch a event).map Call.unguarded := by
  obtain ⟨a, ha, rfl⟩ := (outcome_eq_generated_iff_adapter? p d u).1 hu
  refine ⟨a, ha, rfl, fun event hevent => ⟨forall₂_serves_dispatch ha hevent,
    d.calledFor_subperm_kept event⟩, rfl, fun callLogger => ?_⟩
  obtain ⟨path, hpath, rfl⟩ := ofSettings_eq_ok_iff.1 hp
  obtain ⟨hrejected, entry, hentry, hadapter⟩ := (adapter?_eq_some_iff _ _ _).1 ha
  let q := ofPath { s with callLogger } path
  have hq : ofSettings { s with callLogger } = .ok q := ofSettings_eq_ok_iff.2 ⟨path, hpath, rfl⟩
  have hsame : (ofPath s path).generator.withoutLog = q.generator.withoutLog := rfl
  obtain ⟨b, hb, hab⟩ := Generator.exists_adapter_of_withoutLog_eq hsame hadapter
  have hqb : q.adapter? d = some b := (adapter?_eq_some_iff _ _ _).2 ⟨hrejected, entry, hentry, hb⟩
  refine ⟨q, _, b, hq, (outcome_eq_generated_iff_adapter? _ _ _).2 ⟨b, hqb, rfl⟩, hqb, rfl, ?_⟩
  intro event
  rw [← dispatch_unguarded, hab, dispatch_unguarded]

-- A class with callbacks for any event between those that name events, some of them repeatedly.
def screen : Declaration where
  subject := { name := "Screen" }
  callbacks :=
    [{ declaringClass := { name := "Screen" }, name := "always" },
      { declaringClass := { name := "Screen" }, name := "repeated"
        params := [{ name := "LifecycleOwner" }], events := [.onStart, .onDestroy, .onStart] },
      { declaringClass := { name := "Screen" }, name := "collapsed", events := [.onStart, .onAny] },
      { declaringClass := { name := "Screen" }, name := "visible"
        params := [{ name := "LifecycleOwner" }, { name := "LifecycleEvent" }]
        events := [.onStop, .onStart] },
      { declaringClass := { modules := ["ui"], name := "Base" }, name := "always" },
      { declaringClass := { modules := ["ui"], name := "Base" }, name := "reset", receiver := .none
        events := [.onStart] }]

theorem dispatch_of_generated_screen :
    ∃ p u a, ofSettings {} = .ok p ∧ p.outcome screen = .ok (.generated u) ∧
      p.adapter? screen = some a ∧
      List.Forall₂ (Call.Serves .onStart) (screen.calledFor .onStart) (dispatch a .onStart) ∧
      (screen.calledFor .onStart).map (·.name) =
        ["repeated", "visible", "reset", "always", "collapsed"] := by
  obtain ⟨p, u, hp, hu⟩ := exists_generated (s := {}) (d := screen) (by decide +kernel)
  obtain ⟨a, ha, -, hcalls, -⟩ := dispatch_of_generated hp hu
  exact ⟨p, u, a, hp, hu, ha, (hcalls .onStart (by decide)).1, by decide +kernel⟩

end Processor

end Lifecycle
