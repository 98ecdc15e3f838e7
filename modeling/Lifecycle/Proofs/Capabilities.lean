import Lifecycle.Proofs.Handles

namespace Lifecycle

namespace Callback

-- Whether two callbacks are declared in the same way, whatever the types of their parameters and
-- results can be used as.
structure Recasts (c c' : Callback) : Prop where
  id : c.id = c'.id
  declaringClass : c.declaringClass = c'.declaringClass
  name : c.name = c'.name
  params : List.Forall₂ (fun t t' => t.name = t'.name) c.params c'.params
  result : c.result.map (·.name) = c'.result.map (·.name)
  events : c.events = c'.events
  receiver : c.receiver = c'.receiver
  location : c.location = c'.location

-- What the type of the first parameter can be used as, if there is one.
def firstCapabilities (c : Callback) : Option Text.NameSet :=
  c.params.head?.map (·.capabilities)

-- Whether the type of the first parameter can be used as all that it can be used as in the other
-- callback, and perhaps as more.
def GainsFrom (c' c : Callback) : Prop :=
  ∀ names ∈ c.firstCapabilities, ∀ names' ∈ c'.firstCapabilities, ∀ name ∈ names, name ∈ names'

theorem Recasts.name_head {c c' : Callback} (h : c.Recasts c') {t t' : NamedType}
    (ht : t ∈ c.params.head?) (ht' : t' ∈ c'.params.head?) : t.name = t'.name := by
  have hparams := h.params
  cases hc : c.params <;> cases hc' : c'.params <;> simp_all

-- A callback in two ways that differ at most in what its types can be used as.
structure Cast where
  left : Callback
  right : Callback
  recasts : left.Recasts right

theorem Cast.exists_of_forall₂ {callbacks callbacks' : List Callback}
    (h : List.Forall₂ Recasts callbacks callbacks') :
    ∃ casts : List Cast, callbacks = casts.map (·.left) ∧ callbacks' = casts.map (·.right) := by
  induction h with
  | nil => exact ⟨[], rfl, rfl⟩
  | cons hc _ ih =>
    obtain ⟨casts, hleft, hright⟩ := ih
    exact ⟨⟨_, _, hc⟩ :: casts, by rw [hleft]; rfl, by rw [hright]; rfl⟩

theorem Cast.signature_eq (c : Cast) : c.left.signature = c.right.signature := by
  have hparams : c.left.params.map (·.name) = c.right.params.map (·.name) := by
    rw [← List.forall₂_eq_eq_eq, List.forall₂_map_left_iff, List.forall₂_map_right_iff]
    exact c.recasts.params
  rw [signature, signature, c.recasts.name, hparams]

theorem Cast.sharesSignature_iff (c d : Cast) :
    c.left.SharesSignature d.left ↔ c.right.SharesSignature d.right := by
  rw [Callback.sharesSignature_iff, Callback.sharesSignature_iff, c.signature_eq, d.signature_eq]

end Callback

open Callback

theorem Generator.call_cast (g : Generator) (c : Cast) : g.call c.left = g.call c.right := by
  have hresult : c.left.result.isSome = c.right.result.isSome := by
    simpa using congrArg Option.isSome c.recasts.result
  rw [call, call, callee, callee, arity, arity, c.recasts.name, c.recasts.receiver,
    c.recasts.declaringClass, c.recasts.params.length_eq, hresult]

namespace Violation

-- What may become of a broken rule when the first parameter can be used as more: it is broken as
-- before, or it was the rule on the first parameter and is no longer broken, so that the next rule is
-- tried.
inductive Eases : Violation → Option Violation → Prop where
  | same (v : Violation) : Eases v (some v)
  | second : Eases .invalidFirstArgument (some .invalidSecondArgument)
  | accepted : Eases .invalidFirstArgument none

end Violation

namespace Rules

variable {r : Rules} {params params' : List NamedType}

-- Only the name of the second type and the first type as a whole count.
theorem violation?_eq_of_assignable (h : List.Forall₂ (fun t t' => t.name = t'.name) params params')
    (hfirst : ∀ t ∈ params.head?, ∀ t' ∈ params'.head?,
      t.isAssignableTo r.ownerType = t'.isAssignableTo r.ownerType) :
    r.violation? params = r.violation? params' := by
  cases h with
  | nil => rfl
  | cons hname hrest =>
    have hassignable := hfirst _ rfl _ rfl
    have hlength := hrest.length_eq
    cases hrest with
    | nil => simp [violation?, hassignable]
    | cons hsecond _ => simp_all [violation?]

theorem isAssignableTo_of_subset {t t' : NamedType} {target : String} (hname : t.name = t'.name)
    (hsubset : ∀ name ∈ t.capabilities, name ∈ t'.capabilities)
    (h : t.isAssignableTo target = true) : t'.isAssignableTo target = true := by
  simp only [NamedType.isAssignableTo, Bool.or_eq_true, beq_iff_eq, decide_eq_true_eq, hname] at h ⊢
  exact h.imp_right (hsubset target)

-- A first parameter that can be used as more breaks no further rule by itself.
theorem eases_violation? (h : List.Forall₂ (fun t t' => t.name = t'.name) params params')
    (hfirst : ∀ t ∈ params.head?, ∀ t' ∈ params'.head?, ∀ name ∈ t.capabilities,
      name ∈ t'.capabilities) :
    (r.violation? params = none → r.violation? params' = none) ∧
      ∀ v, r.violation? params = some v → v.Eases (r.violation? params') := by
  by_cases hsame : ∀ t ∈ params.head?, ∀ t' ∈ params'.head?,
      t.isAssignableTo r.ownerType = t'.isAssignableTo r.ownerType
  · rw [violation?_eq_of_assignable h hsame]
    exact ⟨id, fun v hv => hv ▸ .same v⟩
  · cases h with
    | nil => simp at hsame
    | @cons t t' rest rest' hname hrest =>
      -- The first parameter is the owner now and was not before.
      simp only [List.head?_cons, Option.mem_def, Option.some.injEq, forall_eq'] at hsame hfirst
      have hnow : t.isAssignableTo r.ownerType = true → t'.isAssignableTo r.ownerType = true :=
        isAssignableTo_of_subset hname hfirst
      have hbefore : t.isAssignableTo r.ownerType = false := by
        by_contra hassignable
        rw [Bool.not_eq_false] at hassignable
        exact hsame (hassignable.trans (hnow hassignable).symm)
      have hafter : t'.isAssignableTo r.ownerType = true := by
        rw [hbefore] at hsame
        simpa using Ne.symm hsame
      have hlength := hrest.length_eq
      by_cases hmany : maxArity < rest'.length + 1
      · refine ⟨fun hnone => ?_, fun v hv => ?_⟩
        · simp [violation?, hlength, hmany] at hnone
        · obtain rfl : Violation.tooManyArguments = v := by simpa [violation?, hlength, hmany] using hv
          simpa [violation?, hmany] using Violation.Eases.same _
      · have hleft : r.violation? (t :: rest) = some .invalidFirstArgument := by
          simp [violation?, hlength, hmany, hbefore]
        refine ⟨fun hnone => by simp [hleft] at hnone, fun v hv => ?_⟩
        obtain rfl := Option.some.inj (hleft.symm.trans hv)
        cases rest' with
        | nil => simpa [violation?, maxArity, hafter] using Violation.Eases.accepted
        | cons second more =>
          have hfew : ¬maxArity < (t' :: second :: more).length := hmany
          have hright : r.violation? (t' :: second :: more) =
              if second.name ≠ r.eventType then some .invalidSecondArgument else none := by
            rw [violation?, if_neg hfew]
            simp [hafter]
          rw [hright]
          split
          · exact .second
          · exact .accepted

end Rules

-- Results of processing two declarations with the same callbacks but for their rejections. The
-- rejected ones stand in some order, each with the rule that it breaks and the one that it breaks in
-- the second declaration, if any, and these are related. If none is rejected there, the class does not
-- fail any more.
inductive Outcome.Rejudged (R : Violation → Option Violation → Prop) (callbacks : List Callback) :
    Except GenerationError Outcome → Except GenerationError Outcome → Prop where
  | error (e : GenerationError) : Rejudged R callbacks (.error e) (.error e)
  | skipped : Rejudged R callbacks (.ok .skipped) (.ok .skipped)
  | generated (u : SourceUnit) : Rejudged R callbacks (.ok (.generated u)) (.ok (.generated u))
  | failed {rejected : List (Callback × Violation × Option Violation)}
    (hcallbacks : (rejected.map (·.1)).Sublist callbacks)
    (hrelated : ∀ x ∈ rejected, R x.2.1 x.2.2) (hremains : ∃ x ∈ rejected, x.2.2.isSome = true) :
    Rejudged R callbacks
      (.ok (.failed (rejected.map fun x => .ofRejection { callback := x.1, violation := x.2.1 })))
      (.ok (.failed (rejected.filterMap fun x =>
        x.2.2.map fun violation => .ofRejection { callback := x.1, violation })))
  | accepted {rejected : List (Callback × Violation × Option Violation)}
    (hcallbacks : (rejected.map (·.1)).Sublist callbacks) (hrejected : rejected ≠ [])
    (hrelated : ∀ x ∈ rejected, R x.2.1 x.2.2 ∧ x.2.2 = none)
    {o : Except GenerationError Outcome} (hskipped : o ≠ .ok .skipped)
    (hfailed : ∀ told, o ≠ .ok (.failed told)) :
    Rejudged R callbacks
      (.ok (.failed (rejected.map fun x => .ofRejection { callback := x.1, violation := x.2.1 }))) o

namespace Outcome

-- Where the same rules are broken, everything is the same.
theorem Rejudged.eq {callbacks : List Callback} {o o' : Except GenerationError Outcome}
    (h : Rejudged (fun v w => w = some v) callbacks o o') : o = o' := by
  cases h with
  | error => rfl
  | skipped => rfl
  | generated => rfl
  | @failed rejected _ hrelated _ =>
    have hmap : rejected.filterMap (fun x => x.2.2.map fun violation =>
        Diagnostic.ofRejection { callback := x.1, violation }) =
          rejected.map fun x => .ofRejection { callback := x.1, violation := x.2.1 } := by
      rw [← List.filterMap_eq_map]
      exact List.filterMap_congr fun x hx => by simp [hrelated x hx]
    rw [hmap]
  | accepted _ hrejected hrelated =>
    obtain ⟨x, hx⟩ := List.exists_mem_of_ne_nil _ hrejected
    obtain ⟨hsome, hnone⟩ := hrelated x hx
    rw [hsome] at hnone
    cases hnone

end Outcome

theorem Diagnostic.ofRejection_cast (c : Cast) (violation : Violation) :
    ofRejection { callback := c.right, violation } =
      ofRejection { callback := c.left, violation } := by
  rw [ofRejection, ofRejection, c.recasts.id, c.recasts.declaringClass, c.recasts.name,
    c.recasts.location]

namespace Processor

-- The rejected callbacks of the first declaration, each with the rule that it breaks there and in the
-- second one.
def rejectedCasts (r : Rules) (casts : List Cast) :
    List (Callback × Violation × Option Violation) :=
  casts.filterMap fun c =>
    (r.violation? c.left.params).map fun violation => (c.left, violation, r.violation? c.right.params)

theorem mem_rejectedCasts_iff {r : Rules} {casts : List Cast}
    {x : Callback × Violation × Option Violation} :
    x ∈ rejectedCasts r casts ↔ ∃ c ∈ casts, r.violation? c.left.params = some x.2.1 ∧
      x = (c.left, x.2.1, r.violation? c.right.params) := by
  simp only [rejectedCasts, List.mem_filterMap, Option.map_eq_some_iff]
  refine exists_congr fun c => and_congr_right fun _ => ⟨?_, fun ⟨hv, hx⟩ => ⟨_, hv, hx.symm⟩⟩
  rintro ⟨v, hv, rfl⟩
  exact ⟨hv, rfl⟩

theorem sublist_rejectedCasts (r : Rules) (casts : List Cast) :
    ((rejectedCasts r casts).map (·.1)).Sublist (casts.map (·.left)) := by
  induction casts with
  | nil => exact .slnil
  | cons c rest ih =>
    cases h : r.violation? c.left.params with
    | none => simpa [rejectedCasts, h] using ih.cons c.left
    | some violation => simpa [rejectedCasts, h] using ih.cons_cons c.left

theorem judgeAll_left (r : Rules) (casts : List Cast) :
    (judgeAll r (casts.map (·.left))).1 =
      (rejectedCasts r casts).map fun x => .ofRejection { callback := x.1, violation := x.2.1 } := by
  rw [judgeAll_fst_eq, rejectedCasts, List.filterMap_map, List.map_filterMap]
  simp only [Function.comp_def, Option.map_map]

-- No callback is rejected that was not rejected before.
theorem judgeAll_right {r : Rules} {casts : List Cast}
    (h : ∀ c ∈ casts, r.violation? c.left.params = none → r.violation? c.right.params = none) :
    (judgeAll r (casts.map (·.right))).1 = (rejectedCasts r casts).filterMap fun x =>
      x.2.2.map fun violation => .ofRejection { callback := x.1, violation } := by
  rw [judgeAll_fst_eq, rejectedCasts, List.filterMap_map, List.filterMap_filterMap]
  refine List.filterMap_congr fun c hc => ?_
  cases hleft : r.violation? c.left.params with
  | none => simp [h c hc hleft]
  | some v => simp only [Function.comp_apply, Option.map_some, Option.bind_some,
      Diagnostic.ofRejection_cast]

variable {R : Violation → Option Violation → Prop}

theorem rejudged_of_casts (p : Processor) (subject : ClassPath) {casts : List Cast}
    (h : ∀ c ∈ casts,
      (p.rules.violation? c.left.params = none → p.rules.violation? c.right.params = none) ∧
        ∀ v, p.rules.violation? c.left.params = some v → R v (p.rules.violation? c.right.params)) :
    Outcome.Rejudged R (casts.map (·.left)) (p.outcome { subject, callbacks := casts.map (·.left) })
      (p.outcome { subject, callbacks := casts.map (·.right) }) := by
  obtain ⟨kept, hkept, hleft, hright⟩ := Declaration.exists_kept_both
    (fun c : Cast => c.recasts.declaringClass) Cast.sharesSignature_iff subject casts
  by_cases hnil : casts = []
  · subst casts
    exact .skipped
  obtain ⟨e, he⟩ := Declaration.exists_registered?
    (d := { subject, callbacks := casts.map (·.left) }) (by simpa using hnil)
  obtain ⟨e', he'⟩ := Declaration.exists_registered?
    (d := { subject, callbacks := casts.map (·.right) }) (by simpa using hnil)
  have htold := judgeAll_left p.rules kept
  have htold' := judgeAll_right fun c hc => (h c (hkept.subset hc)).1
  have hrelated : ∀ x ∈ rejectedCasts p.rules kept, R x.2.1 x.2.2 := by
    intro x hx
    obtain ⟨c, hc, hv, hx⟩ := mem_rejectedCasts_iff.1 hx
    rw [hx]
    exact (h c (hkept.subset hc)).2 _ hv
  have hcallbacks := (sublist_rejectedCasts p.rules kept).trans (hkept.map _)
  have hnone_iff := judgeAll_fst_eq_nil_iff p.rules (kept.map (·.left))
  have hnone_iff' := judgeAll_fst_eq_nil_iff p.rules (kept.map (·.right))
  rw [htold, List.map_eq_nil_iff] at hnone_iff
  rw [htold'] at hnone_iff'
  by_cases hrejected' : p.rules.rejected (kept.map (·.right)) = []
  · have houtcome' := outcome_of_accepted (hright ▸ hrejected') he'
    by_cases hrejected : p.rules.rejected (kept.map (·.left)) = []
    · rw [outcome_of_accepted (hleft ▸ hrejected) he, houtcome']
      rw [Declaration.registered?, hleft] at he
      rw [Declaration.registered?, hright] at he'
      rw [Generator.unit_both (fun c : Cast => c.recasts.events)
        (Generator.call_cast p.generator) he he']
      cases p.generator.unit e' with
      | error e => exact .error e
      | ok u => exact .generated u
    · -- All rejections have gone, and the second class is generated or ends the run.
      rw [outcome_of_rejected (hleft ▸ hrejected), hleft, htold]
      refine .accepted hcallbacks (mt hnone_iff.1 hrejected) (fun x hx => ⟨hrelated x hx, ?_⟩) ?_ ?_
      · simpa using List.filterMap_eq_nil_iff.1 (hnone_iff'.2 hrejected') x hx
      · rw [houtcome']
        cases p.generator.unit e' <;> simp [Except.map]
      · rw [houtcome']
        cases p.generator.unit e' <;> simp [Except.map]
  · have hremains : ∃ x ∈ rejectedCasts p.rules kept, x.2.2.isSome = true := by
      simpa [List.filterMap_eq_nil_iff, Option.isSome_iff_ne_none] using mt hnone_iff'.1 hrejected'
    have hrejected : p.rules.rejected (kept.map (·.left)) ≠ [] := by
      obtain ⟨x, hx, -⟩ := hremains
      exact mt hnone_iff.2 (List.ne_nil_of_mem hx)
    rw [outcome_of_rejected (hleft ▸ hrejected), outcome_of_rejected (hright ▸ hrejected'), hleft,
      hright, htold, htold']
    exact .failed hcallbacks hrelated hremains

theorem forall_mem_casts {casts : List Cast} {P : Callback → Callback → Prop} :
    (∀ x ∈ (casts.map (·.left)).zip (casts.map (·.right)), P x.1 x.2) ↔
      ∀ c ∈ casts, P c.left c.right := by
  rw [List.zip_map', List.forall_mem_map]

-- Declarations of a class that differ at most in what types can be used as. If the types of first
-- parameters can be used as more in the second one, a class that was generated or ended the run comes
-- to the same, and of one that failed each rejection stays, or it was for the first parameter and is
-- now for the second one or has gone. What any other type can be used as has no influence at all.
theorem outcome_of_recast (p : Processor) {d d' : Declaration} (hsubject : d.subject = d'.subject)
    (h : List.Forall₂ Callback.Recasts d.callbacks d'.callbacks) :
    ((∀ x ∈ d.callbacks.zip d'.callbacks, x.2.GainsFrom x.1) →
      Outcome.Rejudged Violation.Eases d.callbacks (p.outcome d) (p.outcome d')) ∧
    ((∀ x ∈ d.callbacks.zip d'.callbacks, x.1.firstCapabilities = x.2.firstCapabilities) →
      p.outcome d = p.outcome d') := by
  obtain ⟨subject, callbacks⟩ := d
  obtain ⟨_, callbacks'⟩ := d'
  obtain rfl := hsubject
  obtain ⟨casts, rfl, rfl⟩ := Cast.exists_of_forall₂ h
  rw [forall_mem_casts (P := fun c c' => c'.GainsFrom c),
    forall_mem_casts (P := fun c c' => c.firstCapabilities = c'.firstCapabilities)]
  refine ⟨fun hgains => rejudged_of_casts p subject fun c hc => ?_,
    fun hsame => (rejudged_of_casts p subject fun c hc => ?_).eq⟩
  · refine Rules.eases_violation? c.recasts.params fun t ht t' ht' => ?_
    exact hgains c hc _ (by simp_all [firstCapabilities]) _ (by simp_all [firstCapabilities])
  · rw [Rules.violation?_eq_of_assignable c.recasts.params fun t ht t' ht' => ?_]
    · exact ⟨id, fun v hv => hv⟩
    · have hcapabilities : t.capabilities = t'.capabilities := by
        have hfirst := hsame c hc
        rw [firstCapabilities, firstCapabilities, Option.mem_def.1 ht, Option.mem_def.1 ht'] at hfirst
        exact Option.some.inj hfirst
      rw [NamedType.isAssignableTo, NamedType.isAssignableTo, c.recasts.name_head ht ht',
        hcapabilities]

-- A class whose callbacks take an object of some class first, one of them alone and one beside
-- something that is no event.
def gate (first second : List String) : Declaration where
  subject := { name := "Gate" }
  callbacks :=
    [{ declaringClass := { name := "Gate" }, name := "seen"
       params := [{ name := "&Door", capabilities := Text.NameSet.ofList first }] },
      { declaringClass := { name := "Gate" }, name := "both"
        params := [{ name := "&Door", capabilities := Text.NameSet.ofList first },
          { name := "&Door", capabilities := Text.NameSet.ofList second }] }]

-- When the class becomes an owner, the first callback is accepted and the second one is rejected for
-- its other parameter. That this one can be used as an event does not help.
theorem outcome_of_recast_gate :
    ∃ p, ofSettings {} = .ok p ∧
      Outcome.Rejudged Violation.Eases (gate ["Door"] []).callbacks (p.outcome (gate ["Door"] []))
        (p.outcome (gate ["Door", "LifecycleOwner"] [])) ∧
      p.outcome (gate ["Door", "LifecycleOwner"] []) =
        p.outcome (gate ["Door", "LifecycleOwner"] ["LifecycleEvent"]) ∧
      p.outcome (gate ["Door", "LifecycleOwner"] ["LifecycleEvent"]) = .ok (.failed
        [{ id := ⟨0⟩, className := "Gate", callbackName := "both", location := none
           violation := .invalidSecondArgument }]) := by
  have hpath : (runtimePath ({} : Settings).runtimePath).toOption.isSome = true := by decide +kernel
  obtain ⟨path, hpath⟩ := Option.isSome_iff_exists.1 hpath
  have hrecasts : ∀ first second first' second', List.Forall₂ Callback.Recasts
      (gate first second).callbacks (gate first' second').callbacks :=
    fun _ _ _ _ => .cons ⟨rfl, rfl, rfl, .cons rfl .nil, rfl, rfl, rfl, rfl⟩ <|
      .cons ⟨rfl, rfl, rfl, .cons rfl (.cons rfl .nil), rfl, rfl, rfl, rfl⟩ .nil
  have houtcome := fun first second first' second' =>
    @outcome_of_recast (ofPath {} path) (gate first second) (gate first' second') rfl
      (hrecasts first second first' second')
  refine ⟨ofPath {} path, ofSettings_eq_ok_iff.2 ⟨path, Fallible.toOption_eq_some_iff.1 hpath, rfl⟩,
    (houtcome _ _ _ _).1 ?_, (houtcome _ _ _ _).2 ?_, ?_⟩
  · simp [gate, GainsFrom, firstCapabilities]
  · simp [gate, firstCapabilities]
  · have htold : (judgeAll (Rules.ofSettings {})
        (gate ["Door", "LifecycleOwner"] ["LifecycleEvent"]).kept).1 =
        [{ id := ⟨0⟩, className := "Gate", callbackName := "both", location := none
           violation := .invalidSecondArgument }] := by
      decide +kernel
    have hrejected : (Rules.ofSettings {}).rejected
        (gate ["Door", "LifecycleOwner"] ["LifecycleEvent"]).kept ≠ [] := by
      decide +kernel
    have hfailed := outcome_of_rejected (p := ofPath {} path) hrejected
    rw [hfailed]
    exact congrArg (fun told => Except.ok (Outcome.failed told)) htold

end Processor

end Lifecycle
