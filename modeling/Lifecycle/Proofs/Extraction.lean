import Lifecycle.Observer.Extract
import Lifecycle.Proofs.Outcome

namespace Lifecycle

section Results

variable {α β γ : Type}

-- Lists that are related item by item through a third one.
theorem forall₂_comp {R : α → β → Prop} {S : β → γ → Prop} {as : List α} {bs : List β}
    {cs : List γ} (hR : List.Forall₂ R as bs) (hS : List.Forall₂ S bs cs) :
    List.Forall₂ (fun a c => ∃ b, R a b ∧ S b c) as cs := by
  induction hR generalizing cs with
  | nil =>
    cases hS
    exact .nil
  | cons hab _ ih =>
    cases hS with
    | cons hbc hrest => exact .cons ⟨_, hab, hbc⟩ (ih hrest)

theorem faultsOf_eq_nil_iff {results : List (Except α β)} :
    faultsOf results = [] ↔ ∀ r ∈ results, ∃ b, r = .ok b := by
  rw [faultsOf, List.filterMap_eq_nil_iff]
  refine forall₂_congr fun r _ => ?_
  cases r <;> simp

theorem mem_resultsOf_iff {results : List (Except α β)} {b : β} :
    b ∈ resultsOf results ↔ .ok b ∈ results := by
  simp only [resultsOf, List.mem_filterMap]
  constructor
  · rintro ⟨r, hr, hb⟩
    cases r with
    | error e => simp at hb
    | ok c =>
      obtain rfl : c = b := by simpa using hb
      exact hr
  · exact fun h => ⟨_, h, rfl⟩

end Results

-- Whether a method with this signature can be called as a callback: without a receiver, or by
-- reference.
def Signature.isCallable (s : Signature) : Bool :=
  s.receiver?.all (·.isPlainReference)

theorem Signature.isCallable_iff {s : Signature} :
    s.isCallable = true ↔ ∃ receiver, s.receiverKind = .ok receiver := by
  unfold isCallable receiverKind
  cases s.receiver? with
  | none => simp
  | some p => cases h : p.isPlainReference <;> simp [h]

namespace Method

-- The events that the marks of a method list, mark by mark.
def listed (m : Method) : List Event :=
  resultsOf (m.marks.flatMap (·.listedEvents))

-- The callback that a method with a given receiver is.
def found (m : Method) (receiver : Receiver) : FoundCallback where
  name := m.signature.name
  receiver := receiver
  params := m.signature.paramTys.map (·.describe)
  result := m.signature.resultType
  events := m.listed

theorem examine_of_unmarked {m : Method} (h : m.marks = []) :
    m.examine = { cleaned := .method m } := by
  simp [examine, h]

theorem examine_of_receiver {m : Method} {receiver : Receiver} (h : m.marks ≠ [])
    (hreceiver : m.signature.receiverKind = .ok receiver) :
    m.examine =
      { cleaned := .method m.cleaned
        faults := m.signature.faults ++ faultsOf (m.marks.flatMap (·.listedEvents))
        callback := some (m.found receiver) } := by
  simp [examine, h, hreceiver, found, listed]

theorem examine_of_receiver_fault {m : Method} {fault : HostFault} (h : m.marks ≠ [])
    (hreceiver : m.signature.receiverKind = .error fault) :
    m.examine =
      { cleaned := .method m.cleaned
        faults := m.signature.faults ++ faultsOf (m.marks.flatMap (·.listedEvents)) ++ [fault] } := by
  simp [examine, h, hreceiver]

-- A marked method without faults is a callback.
theorem exists_examine_callback {m : Method} (h : m.marks ≠ []) (hfaults : m.examine.faults = []) :
    ∃ receiver, m.signature.receiverKind = .ok receiver ∧
      m.examine.callback = some (m.found receiver) := by
  cases hreceiver : m.signature.receiverKind with
  | error fault => simp [examine_of_receiver_fault h hreceiver] at hfaults
  | ok receiver => exact ⟨receiver, rfl, by rw [examine_of_receiver h hreceiver]⟩

-- What a block knows of a marked method as a callback.
structure IsFound (m : Method) (f : FoundCallback) : Prop where
  receiver : m.signature.receiverKind = .ok f.receiver
  found : f = m.found f.receiver

-- What a declaration of a class says of a method.
structure DeclaredAs (subject : ClassPath) (m : Method) (c : Callback) : Prop where
  declaringClass : c.declaringClass = subject
  name : c.name = m.signature.name.text
  receiver : m.signature.receiverKind = .ok c.receiver
  params : c.params = m.signature.paramTys.map (·.describe)
  result : c.result = m.signature.resultType
  events : c.events = m.listed

theorem IsFound.declaredAs {m : Method} {f : FoundCallback} (h : m.IsFound f)
    (subject : ClassPath) (id : CallbackId) : m.DeclaredAs subject (f.callback subject id) := by
  obtain ⟨hreceiver, hfound⟩ := h
  rw [hfound]
  exact ⟨rfl, rfl, hreceiver, rfl, rfl, rfl⟩

-- The marks of a method without faults have none.
theorem faultsOf_listedEvents {m : Method} (hfaults : m.examine.faults = []) :
    ∀ a ∈ m.marks, faultsOf a.listedEvents = [] := by
  intro a ha
  have hmarks : m.marks ≠ [] := List.ne_nil_of_mem ha
  obtain ⟨receiver, hreceiver, -⟩ := exists_examine_callback hmarks hfaults
  rw [examine_of_receiver hmarks hreceiver] at hfaults
  have hall : faultsOf (m.marks.flatMap (·.listedEvents)) = [] := (List.append_eq_nil_iff.1 hfaults).2
  rw [faultsOf_eq_nil_iff] at hall ⊢
  exact fun r hr => hall r (List.mem_flatMap.2 ⟨a, ha, hr⟩)

end Method

namespace ImplItem

def method? : ImplItem → Option Method
  | .method m => some m
  | .other _ => none

-- The marked methods among some items that can be called are, one by one, the callbacks that are
-- found, whatever is wrong with them or with other items.
theorem forall₂_isFound (items : List ImplItem) :
    List.Forall₂ Method.IsFound
      (((items.filterMap method?).filter (!·.marks.isEmpty)).filter (·.signature.isCallable))
      ((items.map (·.examine)).filterMap (·.callback)) := by
  induction items with
  | nil => exact .nil
  | cons item rest ih =>
    cases item with
    | other ts => exact ih
    | method m =>
      by_cases hmarks : m.marks = []
      · simpa [method?, examine, Method.examine_of_unmarked hmarks, hmarks] using ih
      · simp only [List.filterMap_cons, method?, List.filter_cons, List.isEmpty_eq_false_iff.2 hmarks,
          Bool.not_false, if_true, List.map_cons, examine]
        cases hreceiver : m.signature.receiverKind with
        | error fault =>
          have hcallable : ¬ m.signature.isCallable = true := by
            simp [Signature.isCallable_iff, hreceiver]
          rw [if_neg hcallable, Method.examine_of_receiver_fault hmarks hreceiver]
          exact ih
        | ok receiver =>
          rw [if_pos (Signature.isCallable_iff.2 ⟨receiver, hreceiver⟩),
            Method.examine_of_receiver hmarks hreceiver]
          exact .cons ⟨hreceiver, rfl⟩ ih

end ImplItem

namespace ImplBlock

-- The methods of a block that have a body.
def methods (b : ImplBlock) : List Method :=
  b.items.filterMap ImplItem.method?

-- The methods that are marked as callbacks.
def marked (b : ImplBlock) : List Method :=
  b.methods.filter (!·.marks.isEmpty)

-- The marked methods that can be called.
def callable (b : ImplBlock) : List Method :=
  b.marked.filter (·.signature.isCallable)

-- The callbacks that are found in a block.
def foundCallbacks (b : ImplBlock) : List FoundCallback :=
  (b.items.map (·.examine)).filterMap (·.callback)

theorem marks_ne_nil_of_mem_marked {b : ImplBlock} {m : Method} (h : m ∈ b.marked) :
    m.marks ≠ [] := by
  simpa using (List.mem_filter.1 h).2

theorem extract_of_subject {b : ImplBlock} {subject : ClassPath} (h : b.subject = .ok subject) :
    b.extract =
      { cleaned := { b with items := (b.items.map (·.examine)).map (·.cleaned) }
        declaration := some { subject, callbacks := numbered subject b.foundCallbacks }
        places := b.foundCallbacks.map (·.name.pos)
        faults := (b.items.map (·.examine)).flatMap (·.faults) } := by
  simp [extract, h, foundCallbacks]

theorem extract_of_subject_fault {b : ImplBlock} {fault : HostFault} (h : b.subject = .error fault) :
    b.extract =
      { cleaned := { b with items := (b.items.map (·.examine)).map (·.cleaned) }
        declaration := none
        places := []
        faults := fault :: (b.items.map (·.examine)).flatMap (·.faults) } := by
  simp [extract, h]

theorem method_mem_items_of_mem_marked {b : ImplBlock} {m : Method} (h : m ∈ b.marked) :
    .method m ∈ b.items := by
  obtain ⟨item, hitem, hm⟩ := List.mem_filterMap.1 (List.mem_filter.1 h).1
  cases item with
  | other ts => simp [ImplItem.method?] at hm
  | method m' =>
    obtain rfl : m' = m := by simpa [ImplItem.method?] using hm
    exact hitem

-- A block without a class has a fault, so that a class is only missing if that is told.
theorem faults_ne_nil_of_no_declaration {b : ImplBlock} (h : b.extract.declaration = none) :
    b.extract.faults ≠ [] := by
  cases hsubject : b.subject with
  | ok subject => simp [extract_of_subject hsubject] at h
  | error fault => simp [extract_of_subject_fault hsubject]

-- A block without faults declares its class, and its items have no faults.
theorem declaration_of_no_faults {b : ImplBlock} (h : b.extract.faults = []) :
    ∃ subject, b.extract.declaration =
        some { subject, callbacks := numbered subject b.foundCallbacks } ∧
      ∀ item ∈ b.items, item.examine.faults = [] := by
  cases hsubject : b.subject with
  | error fault => simp [extract_of_subject_fault hsubject] at h
  | ok subject =>
    rw [extract_of_subject hsubject] at h
    exact ⟨subject, by rw [extract_of_subject hsubject], by simpa using h⟩

end ImplBlock

-- In a block without faults all marked methods can be called.
theorem ImplBlock.callable_eq_marked {b : ImplBlock}
    (h : ∀ item ∈ b.items, item.examine.faults = []) : b.callable = b.marked := by
  refine List.filter_eq_self.2 fun m hm => ?_
  obtain ⟨receiver, hreceiver, -⟩ := Method.exists_examine_callback (marks_ne_nil_of_mem_marked hm)
    (h _ (method_mem_items_of_mem_marked hm))
  exact Signature.isCallable_iff.2 ⟨receiver, hreceiver⟩

theorem forall₂_numbered (subject : ClassPath) (found : List FoundCallback) :
    List.Forall₂ (fun f c => ∃ id, c = f.callback subject id) found (numbered subject found) := by
  rw [List.forall₂_iff_get]
  refine ⟨by simp [numbered], fun i hi hn => ⟨.ofIndex i, ?_⟩⟩
  simp [numbered]

-- The callbacks of a block without faults are its marked methods.
theorem ImplBlock.forall₂_declaredAs {b : ImplBlock} {d : Declaration}
    (hfaults : b.extract.faults = []) (hd : b.extract.declaration = some d) :
    List.Forall₂ (Method.DeclaredAs d.subject) b.marked d.callbacks := by
  obtain ⟨subject, hdeclaration, hitems⟩ := declaration_of_no_faults hfaults
  obtain rfl : { subject, callbacks := numbered subject b.foundCallbacks } = d :=
    Option.some.inj (hdeclaration.symm.trans hd)
  have hfound : List.Forall₂ Method.IsFound b.marked b.foundCallbacks :=
    callable_eq_marked hitems ▸ ImplItem.forall₂_isFound b.items
  refine (forall₂_comp hfound (forall₂_numbered subject b.foundCallbacks)).imp ?_
  rintro m c ⟨f, hf, id, rfl⟩
  exact hf.declaredAs subject id

theorem declaringClass_of_mem_numbered {subject : ClassPath} {found : List FoundCallback}
    {c : Callback} (h : c ∈ numbered subject found) : c.declaringClass = subject := by
  obtain ⟨i, hi, rfl⟩ := List.mem_mapIdx.1 h
  rfl

-- Callbacks that a class declares itself are all kept.
theorem Declaration.kept_eq_callbacks {d : Declaration} (h : ∀ c ∈ d.callbacks, c.declaringClass = d.subject) :
    d.kept = d.callbacks := by
  have hfold : ∀ callbacks kept : List Callback,
      (∀ c ∈ callbacks, c.declaringClass = d.subject) →
        callbacks.foldl (keep d.subject) kept = kept ++ callbacks := by
    intro callbacks
    induction callbacks with
    | nil => simp
    | cons c rest ih =>
      intro kept hall
      obtain ⟨hc, hrest⟩ := List.forall_mem_cons.1 hall
      rw [List.foldl_cons, ih _ hrest]
      simp [keep, hc]
  simpa [kept] using hfold d.callbacks [] h

-- The callbacks of a block are all its own.
theorem ImplBlock.kept_eq_callbacks {b : ImplBlock} {d : Declaration}
    (hd : b.extract.declaration = some d) : d.kept = d.callbacks := by
  refine Declaration.kept_eq_callbacks fun c hc => ?_
  cases hsubject : b.subject with
  | error fault => simp [extract_of_subject_fault hsubject] at hd
  | ok subject =>
    obtain rfl : { subject, callbacks := numbered subject b.foundCallbacks } = d := by
      simpa [extract_of_subject hsubject] using hd
    exact declaringClass_of_mem_numbered hc

-- Whether a block has no faults and gets a source text under some settings.
def ImplBlock.generates (s : Settings) (b : ImplBlock) : Bool :=
  b.extract.faults.isEmpty && b.extract.declaration.any (Processor.generates s)

theorem ImplBlock.exists_generated {s : Settings} {b : ImplBlock} (h : b.generates s = true) :
    ∃ d p u, b.extract.faults = [] ∧ b.extract.declaration = some d ∧
      Processor.ofSettings s = .ok p ∧ p.outcome d = .ok (.generated u) := by
  obtain ⟨hfaults, hany⟩ := Bool.and_eq_true_iff.1 h
  obtain ⟨d, hd, hgenerates⟩ := (Option.any_eq_true _ _).1 hany
  obtain ⟨p, u, hp, hu⟩ := Processor.exists_generated hgenerates
  exact ⟨d, p, u, List.isEmpty_iff.1 hfaults, hd, hp, hu⟩

-- The block that a text is.
def ImplBlock.ofText? (text : String) : Option ImplBlock :=
  (Grammar.parseText Grammar.implBlock text).toOption

theorem ImplBlock.ofText?_eq {text : String} {cs : List Char} (h : text.toList = cs) :
    ofText? text = (Tree.read? cs).bind fun trees =>
      (Grammar.parseTrees Grammar.implBlock trees {}).toOption := by
  subst h
  rw [ofText?, Grammar.parseText]
  cases Tree.read? text.toList <;> rfl

end Lifecycle
