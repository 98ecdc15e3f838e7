import Lifecycle.Adapter

namespace Lifecycle

-- Dispatches an event to one adapter: the calls that are made.
def dispatch (a : Adapter) (event : Event) : List Call :=
  if event.isAny then [] else (a.run event none).1

-- Runs adapters in turn on one log: the calls of each.
def runAll (event : Event) : List Adapter → CallLog → List (List Call)
  | [], _ => []
  | a :: rest, log =>
    let (calls, log') := a.run event (some log)
    calls :: runAll event rest (log'.getD log)

-- Dispatches an event to several adapters: the calls that each of them makes.
def dispatchAll (adapters : List Adapter) (event : Event) : List (List Call) :=
  if event.isAny then adapters.map fun _ => [] else runAll event adapters {}

end Lifecycle
