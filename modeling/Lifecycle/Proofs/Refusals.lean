import Lifecycle.Proofs.Outcome
import Lifecycle.Proofs.Registrations
import Lifecycle.Proofs.Spelling

namespace Lifecycle

namespace Fallible

variable {ε α β : Type}

-- Why a step fails, if it does.
def error? : Except ε α → Option ε
  | .ok _ => none
  | .error e => some e

@[simp] theorem error?_ok (a : α) : error? (.ok a : Except ε α) = none := rfl

@[simp] theorem error?_error (e : ε) : error? (.error e : Except ε α) = some e := rfl

@[simp] theorem error?_pure (a : α) : error? (pure a : Except ε α) = none := rfl

theorem error?_eq_none_iff {step : Except ε α} : error? step = none ↔ ∃ a, step = .ok a := by
  cases step <;> simp

theorem error?_eq_some_iff {step : Except ε α} {e : ε} : error? step = some e ↔ step = .error e := by
  cases step <;> simp

-- Of two steps in a row, where the second fails in the same way whatever the first one yields.
theorem error?_bind {step : Except ε α} {next : α → Except ε β} {later : Option ε}
    (h : ∀ a, error? (next a) = later) : error? (step >>= next) = (error? step).or later := by
  cases step with
  | ok a => exact h a
  | error e => rfl

theorem findSome?_cons_or (p : α → Option β) (a : α) (as : List α) :
    (a :: as).findSome? p = (p a).or (as.findSome? p) := by
  rw [List.findSome?_cons]
  cases p a <;> rfl

theorem findSome?_flatMap (p : β → Option ε) (f : α → List β) (as : List α) :
    (as.flatMap f).findSome? p = as.findSome? fun a => (f a).findSome? p := by
  induction as with
  | nil => rfl
  | cons a rest ih => rw [List.flatMap_cons, List.findSome?_append, ih, findSome?_cons_or]

-- A list of steps fails as the first one of them that does.
theorem error?_mapM (step : α → Except ε β) (as : List α) :
    error? (as.mapM step) = as.findSome? fun a => error? (step a) := by
  induction as with
  | nil => rfl
  | cons a rest ih =>
    rw [List.mapM_cons, error?_bind fun _ => error?_bind fun _ => error?_pure _, ih, Option.or_none,
      findSome?_cons_or]

end Fallible

-- The texts in a call of a callback: its name, and the path of its class if it is called by one.
def Callback.texts (c : Callback) : List String :=
  c.name ::
    if c.receiver = .none then c.declaringClass.name :: c.declaringClass.modules else []

-- The texts in the code of a class whose calls go to some callbacks.
def Generator.texts (g : Generator) (subject : ClassPath) (called : List Callback) : List String :=
  g.adapterName subject :: subject.name :: called.flatMap (·.texts)

-- Why a text is no identifier.
def refusal? (text : String) : Option GenerationError :=
  Fallible.error? (identifier text)

theorem refusal?_eq_none_iff {text : String} :
    refusal? text = none ↔ ∃ name, identifier text = .ok name :=
  Fallible.error?_eq_none_iff

namespace Generator

open Fallible

theorem error?_classPath (c : ClassPath) :
    error? (classPath c) = (c.name :: c.modules).findSome? refusal? := by
  unfold classPath
  refine (error?_bind fun name => ?_).trans (findSome?_cons_or refusal? c.name c.modules).symm
  split
  · rename_i hempty
    simp [List.isEmpty_iff.1 hempty]
  · rw [error?_bind fun _ => error?_pure _, Option.or_none, error?_mapM]
    rfl

theorem error?_callee (c : Callback) :
    error? (callee c) =
      (if c.receiver = .none then c.declaringClass.name :: c.declaringClass.modules
        else []).findSome? refusal? := by
  unfold callee
  split
  · rename_i hreceiver
    rw [error?_bind fun _ => error?_pure _, Option.or_none, error?_classPath, if_pos hreceiver]
  · rename_i hreceiver
    rw [if_neg hreceiver]
    rfl

theorem error?_call (g : Generator) (c : Callback) :
    error? (g.call c) = c.texts.findSome? refusal? := by
  unfold call Callback.texts
  rw [error?_bind fun _ => error?_bind fun _ => error?_pure _, Option.or_none, error?_callee,
    findSome?_cons_or]
  rfl

theorem error?_calls (g : Generator) (callbacks : List Callback) :
    error? (callbacks.mapM g.call) = (callbacks.flatMap (·.texts)).findSome? refusal? := by
  rw [error?_mapM, findSome?_flatMap]
  simp only [error?_call]

theorem error?_arm (g : Generator) (e : Entry) (event : Event) :
    error? (g.arm e event) = ((e.callbacksFor event).flatMap (·.texts)).findSome? refusal? := by
  unfold arm
  rw [error?_bind fun _ => error?_pure _, Option.or_none, error?_calls]

-- The generator fails at the first text that is no identifier, whatever else it is made of.
theorem error?_adapter (g : Generator) (e : Entry) :
    error? (g.adapter e) =
      if e.subject.name = "" then some .emptyClassName
      else (g.texts e.subject e.called).findSome? refusal? := by
  by_cases hname : e.subject.name = ""
  · rw [if_pos hname]
    simp [adapter, hname, bind, Except.bind, throw, throwThe, MonadExceptOf.throw]
  · have hempty : e.subject.name.isEmpty = false := by simpa using hname
    rw [if_neg hname]
    simp only [adapter, hempty, Bool.false_eq_true, if_false]
    rw [error?_bind fun _ => error?_bind fun _ => error?_bind fun _ => error?_bind fun _ =>
      error?_pure _, error?_mapM, error?_calls, Option.or_none]
    simp only [error?_arm, ← findSome?_flatMap]
    rw [texts, findSome?_cons_or, findSome?_cons_or, Entry.called, List.flatMap_append,
      List.flatMap_assoc, List.findSome?_append]
    rfl

theorem error?_unit (g : Generator) (e : Entry) : error? (g.unit e) = error? (g.adapter e) := by
  unfold unit
  rw [error?_bind fun _ => error?_pure _, Option.or_none]

end Generator

namespace Registry

-- The callbacks that are accepted for an event, in the order of the acceptances.
def accepted (acceptances : List Acceptance) (e : Event) : List Callback :=
  (acceptances.filter (e ∈ ·.events)).map (·.callback)

-- The callbacks event by event, as the events first occurred, and those for any event at the end.
def callOrder (acceptances : List Acceptance) : List Callback :=
  ((distinct (registered acceptances)).filter (· ≠ .onAny)).flatMap (accepted acceptances) ++
    accepted acceptances .onAny

theorem mem_accepted_iff {acceptances : List Acceptance} {e : Event} {c : Callback} :
    c ∈ accepted acceptances e ↔ ∃ a ∈ acceptances, e ∈ a.events ∧ a.callback = c := by
  simp [accepted, and_assoc]

-- Nothing but an acceptance without events is missing from it.
theorem mem_callOrder_iff {acceptances : List Acceptance} {c : Callback} :
    c ∈ callOrder acceptances ↔ ∃ a ∈ acceptances, a.events ≠ [] ∧ a.callback = c := by
  simp only [callOrder, List.mem_append, List.mem_flatMap, List.mem_filter, mem_distinct,
    decide_eq_true_eq, mem_accepted_iff]
  constructor
  · rintro (⟨e, -, a, ha, he, rfl⟩ | ⟨a, ha, he, rfl⟩)
    · exact ⟨a, ha, List.ne_nil_of_mem he, rfl⟩
    · exact ⟨a, ha, List.ne_nil_of_mem he, rfl⟩
  · rintro ⟨a, ha, hevents, rfl⟩
    obtain ⟨e, he⟩ := List.exists_mem_of_ne_nil _ hevents
    by_cases hany : e = .onAny
    · exact .inr ⟨a, ha, hany ▸ he, rfl⟩
    · exact .inl ⟨e, ⟨List.mem_flatMap.2 ⟨a, ha, he⟩, hany⟩, a, ha, he, rfl⟩

variable {subject : ClassPath} {acceptances : List Acceptance} {e : Entry}

theorem subject_of_toEntry (h : (ofAcceptances subject acceptances).toEntry = some e) :
    e.subject = subject := by
  obtain ⟨-, rfl⟩ := (toEntry_eq_some_iff _ _).1 h
  exact subject_foldl_register acceptances _

theorem callbacksFor_of_toEntry (h : (ofAcceptances subject acceptances).toEntry = some e) :
    e.callbacksFor = accepted acceptances := by
  obtain ⟨-, rfl⟩ := (toEntry_eq_some_iff _ _).1 h
  exact funext fun event => callbacksFor_ofAcceptances subject acceptances event

theorem called_of_toEntry (h : (ofAcceptances subject acceptances).toEntry = some e) :
    e.called = callOrder acceptances := by
  have hnamed : e.namedEvents = (distinct (registered acceptances)).filter (· ≠ .onAny) := by
    obtain ⟨-, rfl⟩ := (toEntry_eq_some_iff _ _).1 h
    exact namedEvents_ofAcceptances subject acceptances
  rw [Entry.called, Entry.anyCallbacks, callbacksFor_of_toEntry h, hnamed, callOrder]

end Registry

-- Whether a text is one identifier.
def ReadsAsIdentifier (text : String) : Prop := ∃ name, identifier text = .ok name

-- Whether all texts in a call of a callback are identifiers.
structure Callback.Callable (c : Callback) : Prop where
  name : ReadsAsIdentifier c.name
  path : c.receiver = .none → ReadsAsIdentifier c.declaringClass.name ∧
    ∀ m ∈ c.declaringClass.modules, ReadsAsIdentifier m

theorem Callback.callable_iff (c : Callback) :
    c.Callable ↔ ∀ text ∈ c.texts, ReadsAsIdentifier text := by
  by_cases h : c.receiver = .none
  · simp only [texts, h, if_true, List.forall_mem_cons]
    exact ⟨fun hc => ⟨hc.name, hc.path h⟩, fun hall => ⟨hall.1, fun _ => hall.2⟩⟩
  · simp only [texts, h, if_false, List.forall_mem_singleton]
    exact ⟨fun hc => hc.name, fun hname => ⟨hname, fun hnone => absurd hnone h⟩⟩

namespace Generator

open Fallible Registry

-- What stands in the code decides on a refusal, and nothing else does.
theorem error?_unit_of_toEntry (g : Generator) {subject : ClassPath} {acceptances : List Acceptance}
    {e : Entry} (h : (ofAcceptances subject acceptances).toEntry = some e) :
    error? (g.unit e) =
      if subject.name = "" then some .emptyClassName
      else (g.texts subject (callOrder acceptances)).findSome? refusal? := by
  rw [error?_unit, error?_adapter, subject_of_toEntry h, called_of_toEntry h]

theorem unit_isOk_iff (g : Generator) {subject : ClassPath} {acceptances : List Acceptance}
    {e : Entry} (h : (ofAcceptances subject acceptances).toEntry = some e) :
    (∃ u, g.unit e = .ok u) ↔
      subject.name ≠ "" ∧ ReadsAsIdentifier (g.adapterName subject) ∧
        ReadsAsIdentifier subject.name ∧
          ∀ a ∈ acceptances, a.events ≠ [] → a.callback.Callable := by
  by_cases hname : subject.name = ""
  · simp [← error?_eq_none_iff, error?_unit_of_toEntry g h, hname]
  · rw [← error?_eq_none_iff, error?_unit_of_toEntry g h, if_neg hname, List.findSome?_eq_none_iff]
    simp only [refusal?_eq_none_iff, texts, List.forall_mem_cons, List.mem_flatMap,
      mem_callOrder_iff, Callback.callable_iff, ReadsAsIdentifier]
    constructor
    · rintro ⟨hadapter, hsubject, hall⟩
      exact ⟨hname, hadapter, hsubject, fun a ha hevents text htext =>
        hall text ⟨a.callback, ⟨a, ha, hevents, rfl⟩, htext⟩⟩
    · rintro ⟨-, hadapter, hsubject, hall⟩
      refine ⟨hadapter, hsubject, ?_⟩
      rintro text ⟨c, ⟨a, ha, hevents, rfl⟩, htext⟩
      exact hall a ha hevents text htext

-- A refusal for a text is one for the first text that is no identifier.
theorem unit_eq_error_iff (g : Generator) {subject : ClassPath} {acceptances : List Acceptance}
    {e : Entry} (h : (ofAcceptances subject acceptances).toEntry = some e) (why : GenerationError) :
    g.unit e = .error why ↔
      subject.name = "" ∧ why = .emptyClassName ∨
      subject.name ≠ "" ∧ ∃ before text after,
        g.texts subject (callOrder acceptances) = before ++ text :: after ∧
          (∀ t ∈ before, ReadsAsIdentifier t) ∧ identifier text = .error why := by
  rw [← error?_eq_some_iff, error?_unit_of_toEntry g h]
  by_cases hname : subject.name = ""
  · simp [hname, eq_comm]
  · rw [if_neg hname, List.findSome?_eq_some_iff]
    simp only [hname, false_and, false_or, ne_eq, not_false_eq_true, true_and]
    refine exists_congr fun before => exists_congr fun text => exists_congr fun after =>
      and_congr_right fun _ => ?_
    rw [and_comm, refusal?, error?_eq_some_iff]
    simp only [refusal?_eq_none_iff, ReadsAsIdentifier]

-- The path of the runtime has been read before; nobody complains of it again.
theorem unit_ne_invalidRuntimePath (g : Generator) {subject : ClassPath}
    {acceptances : List Acceptance} {e : Entry}
    (h : (ofAcceptances subject acceptances).toEntry = some e) (path : String) (cause : Complaint) :
    g.unit e ≠ .error (.invalidRuntimePath path cause) := by
  rw [Ne, unit_eq_error_iff _ h]
  rintro (⟨-, hwhy⟩ | ⟨-, before, text, after, -, -, htext⟩)
  · cases hwhy
  · obtain ⟨name, hname, -⟩ | ⟨cause', hcause⟩ := identifier_cases text
    · rw [hname] at htext
      cases htext
    · cases hcause.symm.trans htext

-- Neither whether calls ask a log nor the modules around the class itself are looked at.
theorem error?_unit_congr (g : Generator) (e : Entry) (callLogger : Bool) (modules : List String) :
    error? ({ g with callLogger }.unit { e with subject := { e.subject with modules } }) =
      error? (g.unit e) := by
  simp only [error?_unit, error?_adapter]
  rfl

-- A class gets a source text exactly if its name is not empty and all names that are written in the
-- text are identifiers: that of the adapter, its own and those of its callbacks, with the class and
-- the modules that a callback without a receiver is called by. Otherwise the first of them that is
-- none, in the order of the text, is what the generator complains of. It never complains of the
-- path of the runtime, which has been read before.
theorem unit_refuses_first {s : Settings} {g : Generator} (hg : ofSettings s = .ok g)
    {subject : ClassPath} {acceptances : List Acceptance} {e : Entry}
    (he : (ofAcceptances subject acceptances).toEntry = some e) :
    ((∃ u, g.unit e = .ok u) ↔
      subject.name ≠ "" ∧ ReadsAsIdentifier (subject.name ++ s.adapterSuffix) ∧
        ReadsAsIdentifier subject.name ∧
          ∀ a ∈ acceptances, a.events ≠ [] → a.callback.Callable) ∧
    (g.unit e = .error .emptyClassName ↔ subject.name = "") ∧
    (∀ text cause, g.unit e = .error (.invalidIdentifier text cause) ↔
      subject.name ≠ "" ∧ identifier text = .error (.invalidIdentifier text cause) ∧
        ∃ before after, (∀ t ∈ before, ReadsAsIdentifier t) ∧
          (subject.name ++ s.adapterSuffix) :: subject.name ::
            (callOrder acceptances).flatMap (·.texts) = before ++ text :: after) ∧
    (∀ path cause, g.unit e ≠ .error (.invalidRuntimePath path cause)) ∧
    runtimePath s.runtimePath = .ok g.runtime ∧
    ∀ callLogger modules why,
      { g with callLogger }.unit { e with subject := { e.subject with modules } } = .error why ↔
        g.unit e = .error why := by
  obtain ⟨path, hpath, hpure⟩ := bind_eq_ok_iff.1 hg
  obtain rfl := Except.ok.inj hpure
  have hcause : ∀ {text why}, identifier text = .error why →
      ∃ cause, why = .invalidIdentifier text cause := by
    intro text why h
    obtain ⟨name, hname, -⟩ | ⟨cause, hcause⟩ := identifier_cases text
    · rw [hname] at h
      cases h
    · exact ⟨cause, Except.error.inj (h.symm.trans hcause)⟩
  refine ⟨unit_isOk_iff _ he, ?_, fun text cause => ?_, fun wrong cause => ?_, hpath,
    fun callLogger modules why => ?_⟩
  · rw [unit_eq_error_iff _ he]
    constructor
    · rintro (⟨hempty, -⟩ | ⟨-, before, text, after, -, -, htext⟩)
      · exact hempty
      · obtain ⟨cause, hcause⟩ := hcause htext
        cases hcause
    · exact fun hempty => .inl ⟨hempty, rfl⟩
  · rw [unit_eq_error_iff _ he]
    constructor
    · rintro (⟨-, hwhy⟩ | ⟨hname, before, first, after, htexts, hbefore, hfirst⟩)
      · cases hwhy
      · obtain ⟨cause', hcause'⟩ := hcause hfirst
        obtain ⟨rfl, rfl⟩ := GenerationError.invalidIdentifier.inj hcause'
        exact ⟨hname, hfirst, before, after, hbefore, htexts⟩
    · rintro ⟨hname, htext, before, after, hbefore, htexts⟩
      exact .inr ⟨hname, before, text, after, htexts, hbefore, htext⟩
  · exact unit_ne_invalidRuntimePath _ he wrong cause
  · rw [← error?_eq_some_iff, ← error?_eq_some_iff, error?_unit_congr]

-- A class with a callback for any event and one for an event by its name, which comes first in the
-- code. Neither name is an identifier.
def misnamed : List Acceptance :=
  [.ofCallback { declaringClass := { name := "Screen" }, name := "fn" },
    .ofCallback { declaringClass := { modules := ["ui", "2d"], name := "Screen" }, name := "seen"
                  events := [.onStop], receiver := .none }]

theorem unit_refuses_first_misnamed :
    ∃ g e cause, ofSettings {} = .ok g ∧
      (ofAcceptances { modules := ["2d"], name := "Screen" } misnamed).toEntry = some e ∧
      g.unit e = .error (.invalidIdentifier "2d" cause) := by
  have hcheck : (ofSettings {}).toOption.any (fun _ =>
      (ofAcceptances { modules := ["2d"], name := "Screen" } misnamed).toEntry.any fun _ =>
        ["ScreenLifecycleAdapter", "Screen", "seen", "Screen", "ui"].all (fun t =>
          (identifier t).toOption.isSome) &&
        (identifier "2d").toOption.isNone &&
        (callOrder misnamed).flatMap (·.texts) == ["seen", "Screen", "ui", "2d", "fn"]) = true := by
    decide +kernel
  obtain ⟨g, hg, e, he, ⟨hgood, hbad⟩, htexts⟩ := by
    simpa only [Option.any_eq_true, toOption_eq_some_iff, Bool.and_eq_true_iff, beq_iff_eq,
      List.all_eq_true, Option.isSome_iff_exists] using hcheck
  obtain ⟨name, hname, -⟩ | ⟨cause, hcause⟩ := identifier_cases "2d"
  · simp [hname, Except.toOption] at hbad
  · obtain ⟨-, -, hrefused, -⟩ := unit_refuses_first hg he
    exact ⟨g, e, cause, hg, he, (hrefused "2d" cause).2 ⟨by decide, hcause, _, ["fn"], hgood,
      by rw [htexts]; rfl⟩⟩

end Generator

end Lifecycle
