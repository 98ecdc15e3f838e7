import Lifecycle.Proofs.Fallible
import Lifecycle.Proofs.Registry
import Lifecycle.Report

namespace Lifecycle

namespace Call

-- A call that asks no log.
def unguarded (c : Call) : Call := { c with key := none }

@[simp] theorem run_none (calls : List Call) : run calls none = (calls, none) := by
  induction calls with
  | nil => rfl
  | cons c rest ih => simp [run, ih]

end Call

namespace Adapter

-- An adapter of the same calls that asks no log.
def unguarded (a : Adapter) : Adapter :=
  { a with
    asksLog := false
    arms := a.arms.map fun (event, calls) => (event, calls.map Call.unguarded)
    always := a.always.map Call.unguarded }

theorem armFor_unguarded (a : Adapter) (event : Event) :
    a.unguarded.armFor event = (a.armFor event).map Call.unguarded := by
  simp only [armFor, unguarded, List.find?_map, Function.comp_def]
  cases a.arms.find? (fun arm => arm.1 = event) <;> rfl

theorem callsFor_unguarded (a : Adapter) (event : Event) :
    a.unguarded.callsFor event = (a.callsFor event).map Call.unguarded := by
  rw [callsFor, armFor_unguarded, callsFor, List.map_append]
  rfl

-- What a choice between arms comes to when each arm is made from the event it is for.
theorem armFor_eq_of_mem {a : Adapter} {event : Event} {R : Event → List Call → Prop}
    (h : ∀ arm ∈ a.arms, R arm.1 arm.2) (hmem : event ∈ a.arms.map (·.1)) :
    R event (a.armFor event) := by
  obtain ⟨arm, harm, harmEvent⟩ := List.mem_map.1 hmem
  unfold armFor
  split
  · rename_i found calls hfound
    have hevent : found = event := by simpa using List.find?_some hfound
    exact hevent ▸ h _ (List.mem_of_find?_eq_some hfound)
  · rename_i hnone
    exact absurd harmEvent (by simpa using List.find?_eq_none.1 hnone arm harm)

theorem armFor_eq_nil {a : Adapter} {event : Event} (h : event ∉ a.arms.map (·.1)) :
    a.armFor event = [] := by
  unfold armFor
  split
  · rename_i found calls hfound
    have hevent : found = event := by simpa using List.find?_some hfound
    exact absurd (List.mem_map.2 ⟨_, List.mem_of_find?_eq_some hfound, hevent⟩) h
  · rfl

end Adapter

namespace Generator

open Fallible

theorem call_eq_ok_iff {g : Generator} {c : Callback} {k : Call} :
    g.call c = .ok k ↔
      identifier c.name = .ok k.method ∧ callee c = .ok k.callee ∧ k.kind = .ofArity c.arity ∧
        k.hasResult = c.result.isSome ∧ k.key = if g.callLogger then some c.name else none := by
  simp only [call, bind_eq_ok_iff, pure, Except.pure, Except.ok.injEq]
  constructor
  · rintro ⟨method, hmethod, target, htarget, rfl⟩
    exact ⟨hmethod, htarget, rfl, rfl, rfl⟩
  · rintro ⟨hmethod, htarget, hkind, hresult, hkey⟩
    exact ⟨_, hmethod, _, htarget, by rw [← hkind, ← hresult, ← hkey]⟩

theorem arm_eq_ok_iff {g : Generator} {e : Entry} {event : Event} {arm : Event × List Call} :
    g.arm e event = .ok arm ↔
      arm.1 = event ∧ List.Forall₂ (fun c k => g.call c = .ok k) (e.callbacksFor event) arm.2 := by
  simp only [Generator.arm, bind_eq_ok_iff, mapM_eq_ok_iff, pure, Except.pure, Except.ok.injEq]
  constructor
  · rintro ⟨calls, hcalls, rfl⟩
    exact ⟨rfl, hcalls⟩
  · rintro ⟨rfl, hcalls⟩
    exact ⟨arm.2, hcalls, rfl⟩

theorem adapter_eq_ok_iff {g : Generator} {e : Entry} {a : Adapter} :
    g.adapter e = .ok a ↔
      e.subject.name.isEmpty = false ∧ identifier (g.adapterName e.subject) = .ok a.name ∧
        identifier e.subject.name = .ok a.subject ∧
        e.namedEvents.mapM (g.arm e) = .ok a.arms ∧ e.anyCallbacks.mapM g.call = .ok a.always ∧
        a.doc = "Lifecycle adapter generated for [\x60" ++ e.subject.name ++ "\x60]." ∧
        a.runtime = g.runtime ∧ a.asksLog = g.callLogger := by
  cases h : e.subject.name.isEmpty with
  | true => simp [adapter, h, throw, throwThe, MonadExceptOf.throw, bind, Except.bind]
  | false =>
    simp only [adapter, h, Bool.false_eq_true, if_false, bind_eq_ok_iff, pure, Except.pure,
      Except.ok.injEq, true_and]
    constructor
    · rintro ⟨name, hname, subject, hsubject, arms, harms, always, halways, rfl⟩
      exact ⟨hname, hsubject, harms, halways, rfl, rfl, rfl⟩
    · rintro ⟨hname, hsubject, harms, halways, hdoc, hruntime, hlog⟩
      exact ⟨_, hname, _, hsubject, _, harms, _, halways, by rw [← hdoc, ← hruntime, ← hlog]⟩

-- The arms of an adapter stand for the named events, in their order.
theorem events_arms {g : Generator} {e : Entry} {arms : List (Event × List Call)}
    (h : e.namedEvents.mapM (g.arm e) = .ok arms) : arms.map (·.1) = e.namedEvents := by
  have hevents : List.Forall₂ (fun event (arm : Event × List Call) => event = arm.1)
      e.namedEvents arms :=
    (mapM_eq_ok_iff.1 h).imp fun _ _ harm => (arm_eq_ok_iff.1 harm).1.symm
  rw [← List.forall₂_map_right_iff, List.forall₂_eq_eq_eq] at hevents
  exact hevents.symm

-- The calls of an adapter for an event are those of the callbacks that the event is the name of,
-- and then those of the callbacks for any event.
theorem callsFor_of_adapter {g : Generator} {e : Entry} {a : Adapter} (h : g.adapter e = .ok a)
    {event : Event} (hevent : event ≠ .onAny) :
    List.Forall₂ (fun c k => g.call c = .ok k) (e.callbacksFor event ++ e.anyCallbacks)
      (a.callsFor event) := by
  obtain ⟨-, -, -, harms, halways, -⟩ := adapter_eq_ok_iff.1 h
  refine List.rel_append ?_ (mapM_eq_ok_iff.1 halways)
  by_cases hmem : event ∈ e.namedEvents
  · refine Adapter.armFor_eq_of_mem
      (R := fun event calls => List.Forall₂ (fun c k => g.call c = .ok k) (e.callbacksFor event) calls)
      (fun arm harm => ?_) (by rwa [events_arms harms])
    obtain ⟨named, hnamed⟩ := exists_of_mapM_eq_ok harms arm harm
    obtain ⟨rfl, hcalls⟩ := arm_eq_ok_iff.1 hnamed
    exact hcalls
  · have hgroup : event ∉ e.groups.events := by
      intro hin
      exact hmem (List.mem_filter.2 ⟨hin, by simpa [Event.isAny] using hevent⟩)
    rw [Adapter.armFor_eq_nil (by rwa [events_arms harms]), Entry.callbacksFor,
      Groups.callbacksFor_eq_nil_of_not_mem hgroup]
    exact .nil

-- The generator that makes the same calls without asking a log.
def withoutLog (g : Generator) : Generator := { g with callLogger := false }

@[simp] theorem adapterName_withoutLog (g : Generator) (c : ClassPath) :
    g.withoutLog.adapterName c = g.adapterName c :=
  rfl

theorem call_withoutLog (g : Generator) (c : Callback) :
    g.withoutLog.call c = (g.call c).map Call.unguarded := by
  unfold call
  cases identifier c.name with
  | error e => rfl
  | ok name => cases callee c <;> rfl

theorem arm_withoutLog (g : Generator) (e : Entry) (event : Event) :
    g.withoutLog.arm e event =
      (g.arm e event).map fun (event, calls) => (event, calls.map Call.unguarded) := by
  unfold arm
  rw [funext (call_withoutLog g), ← map_mapM]
  cases (e.callbacksFor event).mapM g.call <;> rfl

-- Whether calls ask a log changes nothing else about an adapter.
theorem adapter_withoutLog (g : Generator) (e : Entry) :
    g.withoutLog.adapter e = (g.adapter e).map Adapter.unguarded := by
  cases hempty : e.subject.name.isEmpty with
  | true => simp only [adapter, hempty]; rfl
  | false =>
    simp only [adapter, hempty, adapterName_withoutLog, funext (call_withoutLog g),
      funext (arm_withoutLog g e), ← map_mapM]
    cases identifier (g.adapterName e.subject) with
    | error error => rfl
    | ok name =>
      cases identifier e.subject.name with
      | error error => rfl
      | ok subject =>
        cases e.namedEvents.mapM (g.arm e) with
        | error error => rfl
        | ok arms => cases e.anyCallbacks.mapM g.call <;> rfl

-- Generators that differ only in asking a log succeed on the same entries, with the same calls.
theorem exists_adapter_of_withoutLog_eq {g h : Generator} (hgh : g.withoutLog = h.withoutLog)
    {e : Entry} {a : Adapter} (ha : g.adapter e = .ok a) :
    ∃ b, h.adapter e = .ok b ∧ b.unguarded = a.unguarded := by
  have hsilent : h.withoutLog.adapter e = .ok a.unguarded := by
    rw [← hgh, adapter_withoutLog, ha]
    rfl
  rw [adapter_withoutLog] at hsilent
  exact map_eq_ok_iff.1 hsilent

end Generator

end Lifecycle
