import Lifecycle.Demo.Session

namespace Lifecycle.Demo.Session

-- A session after some steps.
def after (s : Session) (steps : List Step) : Session :=
  steps.foldl (fun s step => (s.step step).2) s

theorem observers_step (s : Session) (step : Step) : (s.step step).2.observers = s.observers := by
  cases step with
  | dispatch observer what => simp only [Session.step]; split <;> rfl
  | dispatchAll observers what => rfl
  | run observer what log => simp only [Session.step]; split <;> rfl
  | approve log name kind => simp only [Session.step]; split <;> rfl
  | reset log => rfl

theorem observers_after (s : Session) (steps : List Step) :
    (s.after steps).observers = s.observers := by
  induction steps generalizing s with
  | nil => rfl
  | cons step rest ih => exact (ih (s.step step).2).trans (observers_step s step)

theorem observer?_after (s : Session) (steps : List Step) :
    (s.after steps).observer? = s.observer? := by
  funext number
  rw [observer?, observers_after, observer?]

theorem run_append (s : Session) (before rest : List Step) :
    s.run (before ++ rest) = s.run before ++ (s.after before).run rest := by
  induction before generalizing s with
  | nil => rfl
  | cons step before ih =>
    simp only [List.cons_append, run, after, List.foldl_cons]
    rw [ih, after]

-- The last step of a run is made by the session as the steps before it have left it.
theorem getLast?_run_append (s : Session) (before : List Step) (step : Step) :
    (s.run (before ++ [step])).getLast?.map (·.1) = some ((s.after before).step step).1 := by
  rw [run_append]
  simp [run]

end Lifecycle.Demo.Session
