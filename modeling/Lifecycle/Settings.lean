namespace Lifecycle

-- The settings of a generator run.
structure Settings where
  -- What the first argument of a callback has to be usable as.
  ownerType : String := "LifecycleOwner"
  -- The type of the second argument of a callback.
  eventType : String := "LifecycleEvent"
  -- Where generated code finds the runtime.
  runtimePath : String := "::vigil_lifecycle"
  -- What follows the name of a class in the name of its adapter.
  adapterSuffix : String := "LifecycleAdapter"
  -- Whether calls ask a call log first.
  callLogger : Bool := true
deriving DecidableEq, Inhabited

end Lifecycle
