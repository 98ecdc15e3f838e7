import Lifecycle.Registry
import Mathlib.Data.List.Nodup

namespace Lifecycle

namespace Groups

theorem callbacksFor_add (groups : Groups) (event e : Event) (c : Callback) :
    (groups.add event c).callbacksFor e =
      groups.callbacksFor e ++ if event = e then [c] else [] := by
  induction groups with
  | nil => by_cases h : event = e <;> simp [add, callbacksFor, h]
  | cons group rest ih =>
    obtain ⟨first, callbacks⟩ := group
    by_cases hfirst : first = event
    · subst first
      by_cases h : event = e <;> simp [add, callbacksFor, h]
    · by_cases h : first = e
      · subst first
        simp [add, callbacksFor, hfirst, Ne.symm hfirst]
      · simp [add, callbacksFor, hfirst, h, ih]

-- Events that are listed once each add a callback once each.
theorem callbacksFor_foldl_add {events : List Event} (h : events.Nodup) (groups : Groups)
    (c : Callback) (e : Event) :
    (events.foldl (fun groups event => groups.add event c) groups).callbacksFor e =
      groups.callbacksFor e ++ if e ∈ events then [c] else [] := by
  induction events generalizing groups with
  | nil => simp
  | cons event rest ih =>
    obtain ⟨hevent, hrest⟩ := List.nodup_cons.1 h
    rw [List.foldl_cons, ih hrest, callbacksFor_add]
    by_cases he : event = e
    · subst event
      simp [hevent]
    · simp [he, Ne.symm he]

theorem callbacksFor_eq_nil_of_not_mem {groups : Groups} {e : Event} (h : e ∉ groups.events) :
    groups.callbacksFor e = [] := by
  induction groups with
  | nil => rfl
  | cons group rest ih =>
    obtain ⟨first, callbacks⟩ := group
    simp only [events, List.map_cons, List.mem_cons, not_or] at h
    simpa [callbacksFor, Ne.symm h.1] using ih h.2

end Groups

namespace Registry

theorem subject_foldl_register (acceptances : List Acceptance) (r : Registry) :
    (acceptances.foldl register r).subject = r.subject := by
  induction acceptances generalizing r with
  | nil => rfl
  | cons a rest ih => rw [List.foldl_cons, ih]; rfl

theorem callbacksFor_register (r : Registry) (a : Acceptance) (e : Event) :
    (r.register a).groups.callbacksFor e =
      r.groups.callbacksFor e ++ if e ∈ a.events then [a.callback] else [] :=
  Groups.callbacksFor_foldl_add a.nodup r.groups a.callback e

theorem callbacksFor_foldl_register (acceptances : List Acceptance) (r : Registry) (e : Event) :
    (acceptances.foldl register r).groups.callbacksFor e =
      r.groups.callbacksFor e ++ (acceptances.filter (e ∈ ·.events)).map (·.callback) := by
  induction acceptances generalizing r with
  | nil => simp
  | cons a rest ih =>
    rw [List.foldl_cons, ih, callbacksFor_register]
    by_cases h : e ∈ a.events <;> simp [h]

-- The group of an event: the callbacks whose acceptances list it.
theorem callbacksFor_ofAcceptances (subject : ClassPath) (acceptances : List Acceptance)
    (e : Event) :
    (ofAcceptances subject acceptances).groups.callbacksFor e =
      (acceptances.filter (e ∈ ·.events)).map (·.callback) := by
  rw [ofAcceptances, callbacksFor_foldl_register]
  rfl

theorem toEntry_eq_some_iff (r : Registry) (entry : Entry) :
    r.toEntry = some entry ↔
      r.isEmpty = false ∧ entry = { subject := r.subject, groups := r.groups } := by
  cases h : r.isEmpty <;> simp [toEntry, h, eq_comm]

-- An acceptance for some event leaves the registry filled.
theorem isEmpty_ofAcceptances_eq_false {subject : ClassPath} {acceptances : List Acceptance}
    {a : Acceptance} (hmem : a ∈ acceptances) (ha : a.events ≠ []) :
    (ofAcceptances subject acceptances).isEmpty = false := by
  obtain ⟨e, he⟩ := List.exists_mem_of_ne_nil _ ha
  have hgroup : (ofAcceptances subject acceptances).groups.callbacksFor e ≠ [] := by
    rw [callbacksFor_ofAcceptances]
    exact List.ne_nil_of_mem (List.mem_map.2 ⟨a, List.mem_filter.2 ⟨hmem, by simpa using he⟩, rfl⟩)
  cases hempty : (ofAcceptances subject acceptances).isEmpty with
  | false => rfl
  | true =>
    have hnil : (ofAcceptances subject acceptances).groups = [] := List.isEmpty_iff.1 hempty
    rw [hnil] at hgroup
    exact absurd rfl hgroup

end Registry

namespace Callback

-- Whether it is declared for each event.
def TakesAny (c : Callback) : Prop := c.events = [] ∨ .onAny ∈ c.events

-- Whether it is declared for an event by the name of the event.
def Names (c : Callback) (e : Event) : Prop :=
  c.events ≠ [] ∧ .onAny ∉ c.events ∧ e ∈ c.events

instance (c : Callback) : Decidable c.TakesAny := inferInstanceAs (Decidable (_ ∨ _))

instance (c : Callback) (e : Event) : Decidable (c.Names e) := inferInstanceAs (Decidable (_ ∧ _))

theorem mem_boundEvents_iff (c : Callback) {e : Event} (he : e ≠ .onAny) :
    e ∈ boundEvents c.events ↔ c.Names e := by
  unfold boundEvents Names
  split
  · rename_i h
    simp only [List.mem_singleton, he, false_iff, not_and]
    intro hne hany
    simp [hne, hany] at h
  · rename_i h
    obtain ⟨hne, hany⟩ := not_or.1 h
    have hdeclared : c.events ≠ [] := by simpa using hne
    simp [hdeclared, hany]

theorem onAny_mem_boundEvents_iff (c : Callback) : .onAny ∈ boundEvents c.events ↔ c.TakesAny := by
  unfold boundEvents TakesAny
  split
  · rename_i h
    simpa using h
  · rename_i h
    obtain ⟨hne, hany⟩ := not_or.1 h
    have hdeclared : c.events ≠ [] := by simpa using hne
    simp [hdeclared, hany]

end Callback

end Lifecycle
