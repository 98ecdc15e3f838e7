import Lifecycle.Proofs.Registry
import Mathlib

namespace Lifecycle

theorem distinct_concat {α : Type} [DecidableEq α] (as : List α) (a : α) :
    distinct (as ++ [a]) = if a ∈ as then distinct as else distinct as ++ [a] := by
  induction as with
  | nil => simp [distinct]
  | cons b rest ih =>
    by_cases hmem : a ∈ rest
    · simp [distinct, ih, hmem]
    · rw [if_neg hmem] at ih
      by_cases hb : a = b
      · subst b
        simp [distinct, ih]
      · simp [distinct, ih, hmem, hb]

namespace Groups

theorem events_add (groups : Groups) (event : Event) (c : Callback) :
    (groups.add event c).events =
      if event ∈ groups.events then groups.events else groups.events ++ [event] := by
  induction groups with
  | nil => simp [add, events]
  | cons group rest ih =>
    obtain ⟨first, callbacks⟩ := group
    by_cases h : first = event
    · simp [add, events, h]
    · have hne : event ≠ first := Ne.symm h
      simp only [events] at ih
      simp only [add, h, if_false, events, List.map_cons, ih, List.mem_cons, hne, false_or]
      split <;> rename_i hin <;> simp [hin]

-- One more event keeps the groups in the order in which their events first occurred.
theorem events_add_of_seen {groups : Groups} {seen : List Event}
    (h : groups.events = distinct seen) (event : Event) (c : Callback) :
    (groups.add event c).events = distinct (seen ++ [event]) := by
  rw [events_add, distinct_concat, h]
  simp only [mem_distinct]

theorem events_foldl_add {groups : Groups} {seen : List Event} (h : groups.events = distinct seen)
    (events : List Event) (c : Callback) :
    (events.foldl (fun groups event => groups.add event c) groups).events =
      distinct (seen ++ events) := by
  induction events generalizing groups seen with
  | nil => simpa using h
  | cons event rest ih => simpa using ih (events_add_of_seen h event c)

-- Groups of different events are known by what they hold for each event.
theorem eq_map_callbacksFor {groups : Groups} (h : groups.events.Nodup) :
    groups = groups.events.map fun e => (e, groups.callbacksFor e) := by
  induction groups with
  | nil => rfl
  | cons group rest ih =>
    obtain ⟨first, callbacks⟩ := group
    obtain ⟨hfirst, hrest⟩ := List.nodup_cons.1 h
    have hlater : (events rest).map (fun e => (e, callbacksFor ((first, callbacks) :: rest) e)) =
        rest := by
      conv_rhs => rw [ih hrest]
      refine List.map_congr_left fun e he => ?_
      have hne : first ≠ e := fun heq => hfirst (heq ▸ he)
      simp [callbacksFor, hne]
    rw [events, List.map_cons, List.map_cons, ← events, hlater]
    simp [callbacksFor]

-- The number of callbacks in all groups.
def size (groups : Groups) : Nat :=
  (groups.map (·.2.length)).sum

theorem size_add (groups : Groups) (event : Event) (c : Callback) :
    (groups.add event c).size = groups.size + 1 := by
  induction groups with
  | nil => simp [add, size]
  | cons group rest ih =>
    obtain ⟨first, callbacks⟩ := group
    by_cases h : first = event
    · simp only [add, h, if_true, size, List.map_cons, List.sum_cons, List.length_append,
        List.length_singleton]
      omega
    · simp only [size] at ih
      simp only [add, h, if_false, size, List.map_cons, List.sum_cons, ih]
      omega

theorem size_foldl_add (groups : Groups) (events : List Event) (c : Callback) :
    (events.foldl (fun groups event => groups.add event c) groups).size =
      groups.size + events.length := by
  induction events generalizing groups with
  | nil => rfl
  | cons event rest ih =>
    rw [List.foldl_cons, ih, size_add, List.length_cons]
    omega

end Groups

namespace Registry

-- All events of some acceptances, one acceptance after another.
def registered (acceptances : List Acceptance) : List Event :=
  acceptances.flatMap (·.events)

theorem events_foldl_register {r : Registry} {seen : List Event}
    (h : r.groups.events = distinct seen) (acceptances : List Acceptance) :
    (acceptances.foldl register r).groups.events = distinct (seen ++ registered acceptances) := by
  induction acceptances generalizing r seen with
  | nil => simpa [registered] using h
  | cons a rest ih =>
    have hstep : (r.register a).groups.events = distinct (seen ++ a.events) :=
      Groups.events_foldl_add h a.events a.callback
    simpa [registered] using ih hstep

theorem size_foldl_register (r : Registry) (acceptances : List Acceptance) :
    (acceptances.foldl register r).groups.size =
      r.groups.size + (acceptances.map (·.events.length)).sum := by
  induction acceptances generalizing r with
  | nil => rfl
  | cons a rest ih =>
    have hstep : (r.register a).groups.size = r.groups.size + a.events.length :=
      Groups.size_foldl_add r.groups a.events a.callback
    rw [List.foldl_cons, ih, hstep, List.map_cons, List.sum_cons]
    omega

variable (subject : ClassPath) (acceptances : List Acceptance)

-- The events that have groups, in the order in which they first occurred.
theorem events_ofAcceptances :
    (ofAcceptances subject acceptances).groups.events = distinct (registered acceptances) :=
  @events_foldl_register { subject } [] rfl acceptances

theorem nodup_events_ofAcceptances : (ofAcceptances subject acceptances).groups.events.Nodup := by
  rw [events_ofAcceptances]
  exact nodup_distinct _

theorem groups_ofAcceptances :
    (ofAcceptances subject acceptances).groups = (distinct (registered acceptances)).map fun e =>
      (e, (acceptances.filter (e ∈ ·.events)).map (·.callback)) := by
  rw [Groups.eq_map_callbacksFor (nodup_events_ofAcceptances subject acceptances),
    events_ofAcceptances]
  simp only [callbacksFor_ofAcceptances]

theorem namedEvents_ofAcceptances :
    (ofAcceptances subject acceptances).groups.events.filter (!·.isAny) =
      (distinct (registered acceptances)).filter (· ≠ .onAny) := by
  rw [events_ofAcceptances]
  exact List.filter_congr fun e _ => by cases e <;> rfl

theorem registered_eq_nil_iff : registered acceptances = [] ↔ ∀ a ∈ acceptances, a.events = [] :=
  List.flatMap_eq_nil_iff

theorem isEmpty_ofAcceptances_iff :
    (ofAcceptances subject acceptances).isEmpty = true ↔ ∀ a ∈ acceptances, a.events = [] := by
  rw [isEmpty, List.isEmpty_iff, groups_ofAcceptances, List.map_eq_nil_iff,
    ← registered_eq_nil_iff]
  cases registered acceptances <;> simp [distinct]

end Registry

theorem Entry.registrationCount_eq (e : Entry) : e.registrationCount = e.groups.size := by
  rw [registrationCount, Groups.size, List.sum_eq_foldl, List.foldl_map]

theorem Entry.length_bindings (e : Entry) : e.bindings.length = e.groups.size := by
  simp [bindings, Groups.size, List.length_flatMap]

namespace Registry

-- Whatever is registered, with any number of events each, nothing is lost, doubled or reordered: the
-- group of an event holds the callbacks that were accepted for it, the groups stand in the order in
-- which their events first occurred, and all of them are there. There is no entry exactly if no
-- acceptance has an event.
theorem toEntry_of_acceptances (subject : ClassPath) (acceptances : List Acceptance) :
    ((ofAcceptances subject acceptances).isEmpty = true ↔ ∀ a ∈ acceptances, a.events = []) ∧
    ∃ entry,
      (ofAcceptances subject acceptances).toEntry =
        (if ∀ a ∈ acceptances, a.events = [] then none else some entry) ∧
      entry.subject = subject ∧
      (∀ e, entry.callbacksFor e = (acceptances.filter (e ∈ ·.events)).map (·.callback)) ∧
      entry.namedEvents = (distinct (registered acceptances)).filter (· ≠ .onAny) ∧
      entry.namedEvents.Nodup ∧
      entry.bindings = (distinct (registered acceptances)).flatMap (fun e =>
        (acceptances.filter (e ∈ ·.events)).map fun a => (e, a.callback)) ∧
      entry.registrationCount = entry.bindings.length ∧
      entry.registrationCount = (acceptances.map (·.events.length)).sum ∧
      ∀ group ∈ entry.groups, group.2 ≠ [] := by
  have hempty := isEmpty_ofAcceptances_iff subject acceptances
  have hnamed := namedEvents_ofAcceptances subject acceptances
  refine ⟨hempty, { subject, groups := (ofAcceptances subject acceptances).groups }, ?_, rfl,
    fun e => callbacksFor_ofAcceptances subject acceptances e, hnamed, ?_, ?_, ?_, ?_, ?_⟩
  · rw [toEntry, ofAcceptances, subject_foldl_register, ← ofAcceptances]
    simp only [hempty]
  · exact (nodup_events_ofAcceptances subject acceptances).filter _
  · simp only [Entry.bindings, groups_ofAcceptances, List.flatMap_map, List.map_map]
    rfl
  · rw [Entry.registrationCount_eq, Entry.length_bindings]
  · rw [Entry.registrationCount_eq, ofAcceptances, size_foldl_register]
    simp [Groups.size]
  · intro group hgroup
    rw [groups_ofAcceptances] at hgroup
    obtain ⟨e, he, rfl⟩ := List.mem_map.1 hgroup
    obtain ⟨a, ha, hmem⟩ := List.mem_flatMap.1 (mem_distinct.1 he)
    exact List.ne_nil_of_mem (List.mem_map.2 ⟨a, List.mem_filter.2 ⟨ha, by simpa using hmem⟩, rfl⟩)

end Registry

end Lifecycle
