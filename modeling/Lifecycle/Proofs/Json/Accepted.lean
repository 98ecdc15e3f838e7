import Lifecycle.Proofs.Fallible
import Lifecycle.Proofs.Json.Fitting

namespace Lifecycle.Json

namespace Reader

variable {α β : Type}

-- Whether all values that a reader reads are of some kind.
def ReadsOnly (P : α → Prop) (r : Reader α) : Prop :=
  ∀ ⦃cs a rest⦄, r cs = .ok (a, rest) → P a

namespace ReadsOnly

variable {P : α → Prop} {Q : β → Prop}

theorem trivial (r : Reader α) : ReadsOnly (fun _ => True) r :=
  fun _ _ _ _ => .intro

theorem pure {a : α} (h : P a) : ReadsOnly P (Pure.pure a) := by
  intro cs b rest hrun
  obtain ⟨rfl, -⟩ := Prod.mk.inj (Except.ok.inj hrun)
  exact h

theorem throw (f : Fault) : ReadsOnly P (MonadExcept.throw f : Reader α) := by
  intro cs a rest hrun
  cases hrun

theorem bind {r : Reader α} {next : α → Reader β} (hr : ReadsOnly P r)
    (hnext : ∀ a, P a → ReadsOnly Q (next a)) : ReadsOnly Q (r >>= next) := by
  intro cs b rest hrun
  cases hfirst : r cs with
  | error f =>
    have herror : (r >>= next) cs = .error f := by
      change (r cs >>= fun (a, rest) => next a rest) = _
      rw [hfirst]
      rfl
    rw [herror] at hrun
    cases hrun
  | ok first =>
    obtain ⟨a, more⟩ := first
    rw [bind_of_ok hfirst] at hrun
    exact hnext a (hr hfirst) hrun

-- Where nothing needs to be known of what the first reader reads.
theorem after (r : Reader α) {next : α → Reader β} (hnext : ∀ a, ReadsOnly Q (next a)) :
    ReadsOnly Q (r >>= next) :=
  bind (trivial r) fun a _ => hnext a

theorem ite {c : Prop} [Decidable c] {r s : Reader α} (hr : c → ReadsOnly P r)
    (hs : ¬c → ReadsOnly P s) : ReadsOnly P (if c then r else s) := by
  split
  · exact hr ‹_›
  · exact hs ‹_›

-- A check in front of what is read.
theorem checked {c : Prop} [Decidable c] {check : Reader Unit} {next : Unit → Reader β}
    (hnext : ∀ a, ReadsOnly Q (next a)) :
    ReadsOnly Q (if c then check >>= next else next ()) :=
  ite (fun _ => after _ hnext) fun _ => hnext ()

end ReadsOnly

open ReadsOnly

theorem readsOnly_otherKind {P : α → Prop} (c : Char) : ReadsOnly P (otherKind c : Reader α) := by
  refine ite (fun _ => after _ fun _ => .throw _) fun _ => ite (fun _ => after _ fun _ => ?_)
    fun _ => ite (fun _ => after _ fun _ => after _ fun _ => .throw _) fun _ => ite (fun _ => .throw _)
    fun _ => .throw _
  exact ite (fun _ => .throw _) fun _ => .throw _

theorem readsOnly_number : ReadsOnly Shape.number.Fits number := by
  refine after _ fun c => ite (fun _ => after _ fun n => ?_) fun _ => readsOnly_otherKind c
  refine checked fun _ => ?_
  split
  · exact ite (fun hlt => .pure (.number hlt)) fun _ => .throw _
  · exact .throw _

theorem readsOnly_shape (s : Shape) : ReadsOnly s.Fits (shape s) := by
  cases s with
  | number => exact readsOnly_number
  | text => exact after _ fun t => .pure (.text t)
  | texts =>
    exact after _ fun c => ite (fun _ => after _ fun ts => .pure (.texts ts)) fun _ =>
      readsOnly_otherKind c

theorem readsOnly_choiceName (names : List String) : ReadsOnly (· ∈ names) (choiceName names) :=
  after _ fun _ => ite (fun hmem => .pure hmem) fun _ => .throw _

theorem readsOnly_choice (names : List String) :
    ReadsOnly (Schema.choice names).Fits (choice names) := by
  have hchosen : ∀ {next : String → Reader Json},
      (∀ name ∈ names, ReadsOnly (Schema.choice names).Fits (next name)) →
        ReadsOnly (Schema.choice names).Fits (choiceName names >>= next) :=
    fun hnext => bind (readsOnly_choiceName names) hnext
  refine after _ fun c => ite (fun _ => ?_) fun _ => ite (fun _ => after _ fun _ => ?_) fun _ => .throw _
  · exact hchosen fun name hname => .pure (.choice hname)
  · refine hchosen fun name hname => after _ fun _ => after _ fun c => ?_
    refine checked fun _ => after _ fun _ => after _ fun c => ?_
    exact checked fun _ => after _ fun _ => .pure (.choice hname)

theorem readsOnly_recordItems (fields : List (String × Shape)) (first : Bool) :
    ReadsOnly (List.Forall₂ FieldFits fields) (recordItems fields first) := by
  induction fields generalizing first with
  | nil => exact .pure .nil
  | cons field fields ih =>
    refine after _ fun more => checked fun _ => ?_
    refine bind (readsOnly_shape _) fun value hvalue => bind (ih false) fun values hvalues => ?_
    exact .pure (.cons ⟨rfl, hvalue⟩ hvalues)

variable {fields : List (String × Shape)}

-- Whether all fields that were found are fields of the record.
def Found (fields : List (String × Shape)) (found : List (String × Json)) : Prop :=
  ∀ v ∈ found, ∃ s, fields.lookup v.1 = some s ∧ s.Fits v.2

theorem Found.append {found : List (String × Json)} {key : String} {s : Shape} {j : Json}
    (h : Found fields found) (hfield : fields.lookup key = some s) (hfits : s.Fits j) :
    Found fields (found ++ [(key, j)]) := by
  intro v hv
  rcases List.mem_append.1 hv with hv | hv
  · exact h v hv
  · obtain rfl := List.mem_singleton.1 hv
    exact ⟨s, hfield, hfits⟩

theorem readsOnly_recordFields {fuel : Nat} {first : Bool} {found : List (String × Json)}
    (h : Found fields found) :
    ReadsOnly (Found fields) (recordFields fields fuel first found) := by
  induction fuel generalizing first found with
  | zero => exact .throw _
  | succ fuel ih =>
    refine after _ fun more => ite (fun _ => .pure h) fun _ => after _ fun _ => after _ fun key => ?_
    split
    · rename_i s hfield
      refine checked fun _ => after _ fun _ => bind (readsOnly_shape s) fun j hfits => ?_
      exact ih (h.append hfield hfits)
    · exact after _ fun _ => after _ fun _ => ih h

theorem forall₂_of_mapM {values : List (String × Json)} (find : String → Option Json)
    (hfind : ∀ f ∈ fields, ∀ j, find f.1 = some j → f.2.Fits j)
    (h : (fields.mapM fun (key, _) => (find key).map (key, ·)) = some values) :
    List.Forall₂ FieldFits fields values := by
  induction fields generalizing values with
  | nil =>
    obtain rfl := Option.some.inj h
    exact .nil
  | cons f fields ih =>
    obtain ⟨hf, hfields⟩ := List.forall_mem_cons.1 hfind
    rw [List.mapM_cons] at h
    obtain ⟨v, hv, h⟩ := Option.bind_eq_some_iff.1 h
    obtain ⟨rest, hrest, h⟩ := Option.bind_eq_some_iff.1 h
    obtain ⟨j, hj, rfl⟩ := Option.map_eq_some_iff.1 hv
    obtain rfl := Option.some.inj h
    exact .cons ⟨rfl, hf j hj⟩ (ih hfields hrest)

-- Every field of the record was found, with a value of its shape.
theorem fits_of_ordered {found values : List (String × Json)} (hkeys : (fields.map Prod.fst).Nodup)
    (hfound : Found fields found) (h : ordered fields found = some values) :
    List.Forall₂ FieldFits fields values := by
  refine forall₂_of_mapM (List.lookup · found) (fun f hf j hj => ?_) h
  obtain ⟨before, after, hsplit, -⟩ := List.lookup_eq_some_iff.1 hj
  obtain ⟨s, hs, hfits⟩ := hfound (f.1, j) (by simp [hsplit])
  have hsame : some s = some f.2 := hs.symm.trans (lookup_of_mem hkeys hf)
  exact Option.some.inj hsame ▸ hfits

theorem readsOnly_record (hkeys : (fields.map Prod.fst).Nodup) :
    ReadsOnly (Schema.record fields).Fits (record fields) := by
  refine after _ fun c => ite (fun _ => after _ fun _ => ?_) fun _ => ite (fun _ => after _ fun _ => ?_)
    fun _ => readsOnly_otherKind c
  · refine bind (readsOnly_recordItems fields true) fun values hvalues => after _ fun _ => ?_
    exact .pure (.record hvalues hkeys)
  · refine after _ fun text => bind (readsOnly_recordFields (by simp [Found])) fun found hfound => ?_
    split
    · exact .throw _
    · rename_i values hordered
      exact after _ fun _ => .pure (.record (fits_of_ordered hkeys hfound hordered) hkeys)

end Reader

-- Whether the keys of a record are different.
def Schema.HasDistinctKeys : Schema → Prop
  | .record fields => (fields.map Prod.fst).Nodup
  | _ => True

instance (s : Schema) : Decidable s.HasDistinctKeys :=
  match s with
  | .single _ => inferInstanceAs (Decidable True)
  | .choice _ => inferInstanceAs (Decidable True)
  | .record fields => inferInstanceAs (Decidable (fields.map Prod.fst).Nodup)

theorem Schema.fits_of_read {s : Schema} (hkeys : s.HasDistinctKeys) {text : List Char} {j : Json}
    (h : s.read text = .ok j) : s.Fits j := by
  have honly : Reader.ReadsOnly s.Fits (Reader.value s) := by
    cases s with
    | single shape => exact fun _ _ _ hrun => .single (Reader.readsOnly_shape shape hrun)
    | choice names => exact Reader.readsOnly_choice names
    | record fields => exact Reader.readsOnly_record hkeys
  obtain ⟨⟨value, rest⟩, hvalue, h⟩ := Fallible.bind_eq_ok_iff.1 h
  by_cases hblank : (rest.dropWhile isBlank).isEmpty = true
  · simp only [hblank, if_true] at h
    obtain rfl := Except.ok.inj h
    exact honly hvalue
  · simp only [hblank] at h
    cases h

end Lifecycle.Json
