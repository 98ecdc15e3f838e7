import Lifecycle.Proofs.Overriding
import Lifecycle.Proofs.Registrations

namespace Lifecycle

namespace Callback

-- Whether two callbacks are declared in the same way, whatever their handles and their places are,
-- what their results are called, and whether they may change the object they are called on.
structure Agrees (c c' : Callback) : Prop where
  declaringClass : c.declaringClass = c'.declaringClass
  name : c.name = c'.name
  params : c.params = c'.params
  events : c.events = c'.events
  result : c.result.isSome = c'.result.isSome
  receiver : c.receiver = .none ↔ c'.receiver = .none

-- Two callbacks that agree.
structure Twins where
  left : Callback
  right : Callback
  agrees : left.Agrees right

theorem Twins.exists_of_forall₂ {callbacks callbacks' : List Callback}
    (h : List.Forall₂ Agrees callbacks callbacks') :
    ∃ twins : List Twins, callbacks = twins.map (·.left) ∧ callbacks' = twins.map (·.right) := by
  induction h with
  | nil => exact ⟨[], rfl, rfl⟩
  | cons hc _ ih =>
    obtain ⟨twins, hleft, hright⟩ := ih
    exact ⟨⟨_, _, hc⟩ :: twins, by rw [hleft]; rfl, by rw [hright]; rfl⟩

theorem Twins.sharesSignature_iff (s t : Twins) :
    s.left.SharesSignature t.left ↔ s.right.SharesSignature t.right := by
  rw [SharesSignature, SharesSignature, s.agrees.name, s.agrees.params, t.agrees.name,
    t.agrees.params]

end Callback

open Callback

namespace Declaration

theorem kept_map {α : Type} (f : α → Callback) (subject : ClassPath) (items : List α) :
    (Declaration.mk subject (items.map f)).kept =
      (((withEarlier items).filter fun x => Stays subject (x.1.map f) (f x.2)).map (·.2)).map f := by
  rw [kept_eq, withEarlier_map, List.filter_map, List.map_map, List.map_map]
  rfl

-- Of callbacks in pairs, the same ones stay on both sides if the classes and the signatures are the
-- same.
theorem exists_kept_both {α : Type} {f g : α → Callback}
    (hclass : ∀ x, (f x).declaringClass = (g x).declaringClass)
    (hshares : ∀ x y, (f x).SharesSignature (f y) ↔ (g x).SharesSignature (g y))
    (subject : ClassPath) (items : List α) :
    ∃ kept : List α, kept.Sublist items ∧
      (Declaration.mk subject (items.map f)).kept = kept.map f ∧
      (Declaration.mk subject (items.map g)).kept = kept.map g := by
  refine ⟨_, ?_, kept_map f subject items, ?_⟩
  · conv_rhs => rw [← map_snd_withEarlier items]
    exact List.filter_sublist.map _
  · have hstays : ∀ (earlier : List α) (x : α),
        Stays subject (earlier.map f) (f x) ↔ Stays subject (earlier.map g) (g x) :=
      fun earlier x => by simp only [Stays, List.forall_mem_map, hshares, hclass]
    rw [kept_map]
    simp only [hstays]

end Declaration

namespace Registry

theorem registered_map {α : Type} (f : α → Callback) (items : List α) :
    registered ((items.map f).map .ofCallback) = items.flatMap fun x => boundEvents (f x).events := by
  rw [registered, List.flatMap_map, List.flatMap_map]
  rfl

theorem callbacksFor_map {α : Type} (subject : ClassPath) (f : α → Callback) (items : List α)
    (event : Event) :
    (ofAcceptances subject ((items.map f).map .ofCallback)).groups.callbacksFor event =
      (items.filter fun x => event ∈ boundEvents (f x).events).map f := by
  rw [callbacksFor_ofAcceptances, List.map_map, List.filter_map, List.map_map]
  rfl

end Registry

namespace Generator

theorem call_twins (g : Generator) (t : Twins) : g.call t.left = g.call t.right := by
  have hcallee : callee t.left = callee t.right := by
    have hreceiver := t.agrees.receiver
    unfold callee
    rw [t.agrees.declaringClass]
    cases hl : t.left.receiver <;> cases hr : t.right.receiver <;> simp_all
  rw [call, call, t.agrees.name, hcallee, arity, arity, t.agrees.params, t.agrees.result]

theorem unit_congr {g : Generator} {e e' : Entry} (hsubject : e.subject = e'.subject)
    (hevents : e.namedEvents = e'.namedEvents)
    (hcalls : ∀ event, (e.callbacksFor event).mapM g.call = (e'.callbacksFor event).mapM g.call) :
    g.unit e = g.unit e' := by
  have harm : g.arm e = g.arm e' := by
    funext event
    rw [arm, arm, hcalls]
  have hadapter : g.adapter e = g.adapter e' := by
    rw [adapter, adapter, hsubject, hevents, harm, Entry.anyCallbacks, Entry.anyCallbacks, hcalls]
  rw [unit, unit, hadapter, hsubject]

-- Callbacks in pairs are generated to the same text if they are registered for the same events and
-- are called in the same way.
theorem unit_both {g : Generator} {α : Type} {f f' : α → Callback}
    (hevents : ∀ x, (f x).events = (f' x).events) (hcall : ∀ x, g.call (f x) = g.call (f' x))
    {subject : ClassPath} {items : List α} {e e' : Entry}
    (he : (Registry.ofAcceptances subject ((items.map f).map .ofCallback)).toEntry = some e)
    (he' : (Registry.ofAcceptances subject ((items.map f').map .ofCallback)).toEntry = some e') :
    g.unit e = g.unit e' := by
  obtain ⟨-, rfl⟩ := (Registry.toEntry_eq_some_iff _ _).1 he
  obtain ⟨-, rfl⟩ := (Registry.toEntry_eq_some_iff _ _).1 he'
  refine unit_congr ?_ ?_ fun event => ?_
  · exact (Registry.subject_foldl_register _ _).trans (Registry.subject_foldl_register _ _).symm
  · simp only [Entry.namedEvents, Registry.events_ofAcceptances, Registry.registered_map, hevents]
  · simp only [Entry.callbacksFor, Registry.callbacksFor_map, hevents, List.mapM_map,
      Function.comp_def, hcall]

end Generator

namespace Processor

-- What is told of callbacks, one by one.
theorem judgeAll_fst_eq (r : Rules) (callbacks : List Callback) :
    (judgeAll r callbacks).1 = callbacks.filterMap fun c =>
      (r.violation? c.params).map fun violation => .ofRejection { callback := c, violation } := by
  induction callbacks with
  | nil => rfl
  | cons c rest ih =>
    cases h : r.violation? c.params with
    | some v => simp [judgeAll_cons_rejected h, h, ih]
    | none => simp [judgeAll_cons_accepted h, h, ih]

end Processor

-- What is told of a callback, told of another one that is known by another handle and from another
-- place.
def Diagnostic.retold (d : Diagnostic) (c : Callback) : Diagnostic :=
  { d with id := c.id, location := c.location }

theorem Diagnostic.ofRejection_twins (t : Twins) (violation : Violation) :
    ofRejection { callback := t.right, violation } =
      (ofRejection { callback := t.left, violation }).retold t.right := by
  rw [retold, ofRejection, ofRejection, t.agrees.declaringClass, t.agrees.name]

-- Results of processing that differ at most in what is told of callbacks of a class. Of the rejected
-- ones, which stand in pairs in some order, the same is told one by one, but with the handle and the
-- place of the second callback of the pair instead of those of the first.
inductive Outcome.Retold (pairs : List (Callback × Callback)) :
    Except GenerationError Outcome → Except GenerationError Outcome → Prop where
  | error (e : GenerationError) : Retold pairs (.error e) (.error e)
  | skipped : Retold pairs (.ok .skipped) (.ok .skipped)
  | generated (u : SourceUnit) : Retold pairs (.ok (.generated u)) (.ok (.generated u))
  | failed {rejected : List ((Callback × Callback) × Violation)}
    (h : (rejected.map (·.1)).Sublist pairs) :
    Retold pairs
      (.ok (.failed (rejected.map fun r => .ofRejection { callback := r.1.1, violation := r.2 })))
      (.ok (.failed (rejected.map fun r =>
        (Diagnostic.ofRejection { callback := r.1.1, violation := r.2 }).retold r.1.2)))

namespace Outcome

-- Where handles and places are the same, so is everything.
theorem Retold.eq {pairs : List (Callback × Callback)} {o o' : Except GenerationError Outcome}
    (h : Retold pairs o o') (hpairs : ∀ x ∈ pairs, x.1.id = x.2.id ∧ x.1.location = x.2.location) :
    o = o' := by
  cases h with
  | error => rfl
  | skipped => rfl
  | generated => rfl
  | failed h =>
    refine congrArg _ (congrArg _ (List.map_congr_left fun r hr => ?_))
    obtain ⟨hid, hlocation⟩ := hpairs r.1 (h.subset (List.mem_map_of_mem hr))
    rw [Diagnostic.retold, ← hid, ← hlocation]
    rfl

end Outcome

namespace Processor

-- The rejected callbacks in pairs, with the rules that they break.
def rejectedPairs (r : Rules) (twins : List Twins) : List ((Callback × Callback) × Violation) :=
  twins.filterMap fun t =>
    (r.violation? t.left.params).map fun violation => ((t.left, t.right), violation)

theorem sublist_rejectedPairs (r : Rules) (twins : List Twins) :
    ((rejectedPairs r twins).map (·.1)).Sublist (twins.map fun t => (t.left, t.right)) := by
  induction twins with
  | nil => exact .slnil
  | cons t rest ih =>
    cases h : r.violation? t.left.params with
    | none => simpa [rejectedPairs, h] using ih.cons (t.left, t.right)
    | some violation => simpa [rejectedPairs, h] using ih.cons_cons (t.left, t.right)

-- The same ones are rejected, for the same reasons.
theorem retold_judgeAll (r : Rules) {pairs : List (Callback × Callback)} {twins : List Twins}
    (h : (twins.map fun t => (t.left, t.right)).Sublist pairs) :
    Outcome.Retold pairs (.ok (.failed (judgeAll r (twins.map (·.left))).1))
      (.ok (.failed (judgeAll r (twins.map (·.right))).1)) := by
  have hleft : (judgeAll r (twins.map (·.left))).1 = (rejectedPairs r twins).map fun x =>
      .ofRejection { callback := x.1.1, violation := x.2 } := by
    rw [judgeAll_fst_eq, rejectedPairs, List.filterMap_map, List.map_filterMap]
    simp only [Function.comp_def, Option.map_map]
  have hright : (judgeAll r (twins.map (·.right))).1 = (rejectedPairs r twins).map fun x =>
      (Diagnostic.ofRejection { callback := x.1.1, violation := x.2 }).retold x.1.2 := by
    rw [judgeAll_fst_eq, rejectedPairs, List.filterMap_map, List.map_filterMap]
    simp only [Function.comp_def, Option.map_map, ← Diagnostic.ofRejection_twins,
      fun t : Twins => t.agrees.params]
  rw [hleft, hright]
  exact .failed ((sublist_rejectedPairs r twins).trans h)

theorem rejected_twins_eq_nil_iff (r : Rules) (twins : List Twins) :
    r.rejected (twins.map (·.left)) = [] ↔ r.rejected (twins.map (·.right)) = [] := by
  simp only [Rules.rejected, List.filter_eq_nil_iff, List.forall_mem_map, Rules.rejects,
    fun t : Twins => t.agrees.params]

theorem retold_of_twins (p : Processor) (subject : ClassPath) (twins : List Twins) :
    Outcome.Retold (twins.map fun t => (t.left, t.right))
      (p.outcome { subject, callbacks := twins.map (·.left) })
      (p.outcome { subject, callbacks := twins.map (·.right) }) := by
  obtain ⟨kept, hkept, hleft, hright⟩ := Declaration.exists_kept_both
    (fun t : Twins => t.agrees.declaringClass) Twins.sharesSignature_iff subject twins
  by_cases hnil : twins = []
  · subst twins
    exact .skipped
  by_cases hrejected : p.rules.rejected (kept.map (·.left)) = []
  · -- Both are registered, and the generator gives the same for both.
    have hrejected' := (rejected_twins_eq_nil_iff _ _).1 hrejected
    obtain ⟨e, he⟩ := Declaration.exists_registered?
      (d := { subject, callbacks := twins.map (·.left) }) (by simpa using hnil)
    obtain ⟨e', he'⟩ := Declaration.exists_registered?
      (d := { subject, callbacks := twins.map (·.right) }) (by simpa using hnil)
    rw [outcome_of_accepted (hleft ▸ hrejected) he, outcome_of_accepted (hright ▸ hrejected') he']
    rw [Declaration.registered?, hleft] at he
    rw [Declaration.registered?, hright] at he'
    rw [Generator.unit_both (fun t : Twins => t.agrees.events) (Generator.call_twins p.generator) he he']
    cases p.generator.unit e' with
    | error e => exact .error e
    | ok u => exact .generated u
  · have hrejected' := mt (rejected_twins_eq_nil_iff _ _).2 hrejected
    rw [outcome_of_rejected (hleft ▸ hrejected), outcome_of_rejected (hright ▸ hrejected'), hleft,
      hright]
    exact retold_judgeAll p.rules (hkept.map _)

-- Declarations of a class whose callbacks agree one by one come to the same: no handle and no place
-- has an influence on it, nor the name of a result, nor whether a callback may change the object that
-- it is called on. An error and a source text are the same, and what is told of rejected callbacks is
-- the same but for their handles and places, which are told again. Where these are the same, all is.
theorem outcome_of_agreeing (p : Processor) {d d' : Declaration} (hsubject : d.subject = d'.subject)
    (h : List.Forall₂ Callback.Agrees d.callbacks d'.callbacks) :
    Outcome.Retold (d.callbacks.zip d'.callbacks) (p.outcome d) (p.outcome d') ∧
      ((∀ x ∈ d.callbacks.zip d'.callbacks, x.1.id = x.2.id ∧ x.1.location = x.2.location) →
        p.outcome d = p.outcome d') := by
  obtain ⟨subject, callbacks⟩ := d
  obtain ⟨_, callbacks'⟩ := d'
  obtain rfl := hsubject
  obtain ⟨twins, rfl, rfl⟩ := Twins.exists_of_forall₂ h
  have hretold := retold_of_twins p subject twins
  rw [← List.zip_map'] at hretold
  exact ⟨hretold, hretold.eq⟩

-- A class with a callback that keeps the rules and one that does not.
def panel (id : CallbackId) (location : Option Location) (result : String) (receiver : Receiver) :
    Declaration where
  subject := { name := "Panel" }
  callbacks :=
    [{ id, declaringClass := { name := "Panel" }, name := "seen"
       result := some { name := result }, receiver, location },
      { id, declaringClass := { name := "Panel" }, name := "wrong"
        params := [{ name := "u8" }], location }]

def elsewhere : Location := { file := "panel.rs", line := 3, column := 5 }

-- With another handle and another place, the same callback is rejected, and both are told. A result
-- of another type and an object that may be changed are not told.
theorem outcome_of_agreeing_panel :
    ∃ p, ofSettings {} = .ok p ∧
      Outcome.Retold
        ((panel ⟨1⟩ none "u8" .shared).callbacks.zip
          (panel ⟨7⟩ (some elsewhere) "u16" .mutable).callbacks)
        (p.outcome (panel ⟨1⟩ none "u8" .shared))
        (p.outcome (panel ⟨7⟩ (some elsewhere) "u16" .mutable)) ∧
      p.outcome (panel ⟨7⟩ (some elsewhere) "u16" .mutable) = .ok (.failed
        [{ id := ⟨7⟩, className := "Panel", callbackName := "wrong", location := some elsewhere
           violation := .invalidFirstArgument }]) ∧
      p.outcome (panel ⟨1⟩ none "u8" .shared) = p.outcome (panel ⟨1⟩ none "u16" .mutable) := by
  have hpath : (runtimePath ({} : Settings).runtimePath).toOption.isSome = true := by decide +kernel
  obtain ⟨path, hpath⟩ := Option.isSome_iff_exists.1 hpath
  have hagrees : ∀ id location, List.Forall₂ Callback.Agrees
      (panel ⟨1⟩ none "u8" .shared).callbacks (panel id location "u16" .mutable).callbacks :=
    fun id location => .cons ⟨rfl, rfl, rfl, rfl, rfl, by simp⟩ <|
      .cons ⟨rfl, rfl, rfl, rfl, rfl, .rfl⟩ .nil
  have houtcome := fun id location =>
    @outcome_of_agreeing (ofPath {} path) (panel ⟨1⟩ none "u8" .shared)
      (panel id location "u16" .mutable) rfl (hagrees id location)
  refine ⟨ofPath {} path, ofSettings_eq_ok_iff.2 ⟨path, Fallible.toOption_eq_some_iff.1 hpath, rfl⟩,
    (houtcome ⟨7⟩ elsewhere).1, ?_, (houtcome ⟨1⟩ none).2 (by decide)⟩
  have htold : (judgeAll (Rules.ofSettings {}) (panel ⟨7⟩ elsewhere "u16" .mutable).kept).1 =
      [{ id := ⟨7⟩, className := "Panel", callbackName := "wrong", location := some elsewhere
         violation := .invalidFirstArgument }] := by
    decide +kernel
  have hrejected :
      (Rules.ofSettings {}).rejected (panel ⟨7⟩ elsewhere "u16" .mutable).kept ≠ [] := by
    decide +kernel
  have hfailed := outcome_of_rejected (p := ofPath {} path) hrejected
  rw [hfailed]
  exact congrArg (fun told => Except.ok (Outcome.failed told)) htold

end Processor

end Lifecycle
