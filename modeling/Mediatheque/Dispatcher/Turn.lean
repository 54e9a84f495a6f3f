import Mediatheque.Dispatcher.Command
import Mediatheque.Dispatcher.Report

/-!
# Turns of the dispatcher

The dispatcher works in turns: it handles the commands that have queued up, then the
reports of the backends, and then writes the settings that are due. A command to quit
ends it at the end of the turn; a fault ends it at once.

* `Dispatcher.turn`: one turn.
-/

namespace Mediatheque

namespace Dispatcher

/-- Whether the dispatcher goes on. -/
inductive Outlook where
  | running
  /-- It was told to quit. -/
  | quit
  /-- It met a fault, after which it handles nothing. -/
  | faulted
deriving DecidableEq, Inhabited

/-- What a turn leaves behind. -/
structure Turn where
  outlook : Outlook
  dispatcher : Dispatcher
  commands : Sink Command
  reports : Sink BackendMessage
deriving Inhabited

/-- Handles a message of a pass, unless the dispatcher has met a fault before. The flag
tells of faults. -/
def handleInPass {α : Type} (handle : Dispatcher → α → Except Fault Dispatcher)
    (state : Dispatcher × Bool) (message : α) : (Dispatcher × Bool) × List α × Flow :=
  match handle state.1 message with
  | .ok d => ((d, false), [], .go)
  | .error _ => ((state.1, true), [], .stop)

/-- Handles a command; a refusal is of no consequence. -/
def passCommand (now : Nat) (d : Dispatcher) (c : Command) : Except Fault Dispatcher :=
  (d.handleCommand now c).map (·.2)

/-- One turn at a time in milliseconds. -/
def turn (d : Dispatcher) (now : Nat) (commands : Sink Command) (reports : Sink BackendMessage) :
    Turn :=
  match commands.pass (handleInPass (passCommand now)) (d, false) with
  | (_, (d, true), commands) => ⟨.faulted, d, commands, reports⟩
  | (pass, (d, false), commands) =>
    match reports.pass (handleInPass (handleReport · now)) (d, false) with
    | (_, (d, true), reports) => ⟨.faulted, d, commands, reports⟩
    | (_, (d, false), reports) =>
      ⟨if pass.keepRunning then .running else .quit, d.tick now, commands, reports⟩

end Dispatcher

end Mediatheque
