import Mathlib.Data.List.Forall2

namespace Lifecycle.Fallible

variable {ε α β γ : Type}

theorem bind_eq_ok_iff {step : Except ε α} {next : α → Except ε β} {b : β} :
    (step >>= next) = .ok b ↔ ∃ a, step = .ok a ∧ next a = .ok b := by
  cases step <;> simp [bind, Except.bind]

theorem map_eq_ok_iff {step : Except ε α} {f : α → β} {b : β} :
    step.map f = .ok b ↔ ∃ a, step = .ok a ∧ f a = b := by
  cases step <;> simp [Except.map]

theorem toOption_eq_some_iff {step : Except ε α} {a : α} :
    step.toOption = some a ↔ step = .ok a := by
  cases step <;> simp [Except.toOption]

theorem mapM_eq_ok_iff {step : α → Except ε β} {as : List α} {bs : List β} :
    as.mapM step = .ok bs ↔ List.Forall₂ (fun a b => step a = .ok b) as bs := by
  induction as generalizing bs with
  | nil => cases bs <;> simp [pure, Except.pure]
  | cons a rest ih =>
    rw [List.mapM_cons, bind_eq_ok_iff, List.forall₂_cons_left_iff]
    constructor
    · rintro ⟨b, hb, h⟩
      obtain ⟨bs', hbs, hpure⟩ := bind_eq_ok_iff.1 h
      exact ⟨b, bs', hb, ih.1 hbs, (Except.ok.inj hpure).symm⟩
    · rintro ⟨b, bs', hb, hbs, rfl⟩
      exact ⟨b, hb, bind_eq_ok_iff.2 ⟨bs', ih.2 hbs, rfl⟩⟩

-- The results of a list, each as the result of some item.
theorem exists_of_mapM_eq_ok {step : α → Except ε β} {as : List α} {bs : List β}
    (h : as.mapM step = .ok bs) : ∀ b ∈ bs, ∃ a, step a = .ok b := by
  have hall := mapM_eq_ok_iff.1 h
  clear h
  induction hall with
  | nil => simp
  | cons hab _ ih =>
    intro b hb
    rcases List.mem_cons.1 hb with rfl | hb
    · exact ⟨_, hab⟩
    · exact ih b hb

-- Results can be changed one by one or all at the end.
theorem map_mapM (step : α → Except ε β) (f : β → γ) (as : List α) :
    (as.mapM step).map (List.map f) = as.mapM fun a => (step a).map f := by
  induction as with
  | nil => rfl
  | cons a rest ih =>
    simp only [List.mapM_cons]
    rw [← ih]
    cases step a with
    | error e => rfl
    | ok b => cases rest.mapM step <;> rfl

end Lifecycle.Fallible
