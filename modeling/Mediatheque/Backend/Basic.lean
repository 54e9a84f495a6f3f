import Mediatheque.Bus.Sink

/-!
# Backends

A backend owns a part of the library: the top-level containers that it claims, and
all below them. It takes commands from the dispatcher and reports back to it.

* `BackendInfo`: what a backend declares of itself;
* `BackendMessage`: a report with the name of its sender.
-/

namespace Mediatheque

/-- Which of the commands for many backends a backend takes part in. -/
structure Capabilities where
  /-- It takes commands to rescan, and reports each as complete. -/
  rescan : Bool := false
  remoteDevices : Bool := false
  volumes : Bool := false
  /-- It reports once that it has filled a new database. -/
  creationDone : Bool := false
deriving DecidableEq, Inhabited

/-- What a backend declares of itself. A backend with settings has a context for them,
of its own name. -/
structure BackendInfo where
  name : String
  longName : String
  capabilities : Capabilities := {}
  parameters : List ParameterInfo := []
deriving DecidableEq, Inhabited

/-- A report with the name of the backend that sent it. -/
structure BackendMessage where
  backend : String
  event : BackendEvent
deriving Inhabited

instance : BusMessage BackendMessage := ⟨fun _ => false⟩

end Mediatheque
