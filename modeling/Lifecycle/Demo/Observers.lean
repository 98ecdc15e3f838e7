import Lifecycle.Report

namespace Lifecycle.Demo

structure SampleCallback where
  name : String
  events : List Event := []
  -- How many of owner and event it takes.
  arity : Nat := 0
  receiver : Receiver := .mutable
  result : Option NamedType := none

structure SampleClass where
  name : String
  callLogger : Bool := true
  callbacks : List SampleCallback

-- The types of a callback's parameters.
def parameterTypes : List NamedType :=
  [{ name := "&dyn LifecycleOwner", capabilities := Text.NameSet.ofList ["LifecycleOwner"] },
    { name := "LifecycleEvent" }]

namespace SampleClass

def declaration (c : SampleClass) : Declaration :=
  let subject : ClassPath := { name := c.name }
  { subject
    callbacks := c.callbacks.map fun s =>
      { declaringClass := subject, name := s.name, params := parameterTypes.take s.arity
        result := s.result, events := s.events, receiver := s.receiver } }

def adapter? (c : SampleClass) : Option Adapter := do
  let processor ← (Processor.ofSettings { callLogger := c.callLogger }).toOption
  processor.adapter? c.declaration

end SampleClass

-- Counts its calls and tells all it is given.
def recorder : SampleClass where
  name := "Recorder"
  callbacks :=
    [{ name := "stop_first", events := [.onStop] },
      { name := "stop_second", events := [.onStop], arity := 1 },
      { name := "visibility", events := [.onStart, .onStop], arity := 2 },
      { name := "any", arity := 2 },
      { name := "created", events := [.onCreate], receiver := .none },
      { name := "count", events := [.onResume], result := some { name := "usize" } }]

-- Shares names of callbacks with the first sample.
def sibling : SampleClass where
  name := "Sibling"
  callbacks :=
    [{ name := "any", arity := 1 },
      { name := "stop_first", events := [.onStop] },
      { name := "visibility", events := [.onStop, .onPause] }]

-- Never asks a log.
def quiet : SampleClass where
  name := "Quiet"
  callLogger := false
  callbacks :=
    [{ name := "stop_first", events := [.onStop] },
      { name := "any", events := [.onAny], arity := 2 }]

-- Has a callback for each event, not in lifecycle order.
def each : SampleClass where
  name := "Each"
  callbacks :=
    [{ name := "destroy", events := [.onDestroy] },
      { name := "create", events := [.onCreate] },
      { name := "start", events := [.onStart] },
      { name := "resume", events := [.onResume] },
      { name := "pause", events := [.onPause] },
      { name := "stop", events := [.onStop] }]

-- Repeats events and lists any event among others.
def mixed : SampleClass where
  name := "Mixed"
  callbacks :=
    [{ name := "collapsed", events := [.onStop, .onAny] },
      { name := "repeated", events := [.onStart, .onStart, .onDestroy], arity := 1 },
      { name := "start", events := [.onStart], arity := 2, receiver := .none }]

-- All sample observers.
def classes : List SampleClass := [recorder, sibling, quiet, each, mixed]

end Lifecycle.Demo
