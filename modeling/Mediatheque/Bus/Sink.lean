import Mediatheque.Message.Event
import Mediatheque.Text.Duration

/-!
# Sinks

A sink is a bounded queue with one consumer. Producers never wait: a message that a
full sink or one without a consumer is offered is dropped, which the offer tells. The
consumer takes what has queued up in passes; a pass ends early at a message to quit,
or when its handler asks for that.

* `Sink.offer`, `Sink.put`: a message from a producer;
* `Sink.next?`, `Sink.drain`, `Sink.pass`: messages for the consumer.
-/

namespace Mediatheque

/-- Why the bus does not deliver. -/
inductive BusError where
  | full
  | disconnected
  /-- No answer came within a number of milliseconds. -/
  | timeout (milliseconds : Nat)
deriving DecidableEq, Inhabited

/-- The message of an error for people. -/
def BusError.message : BusError → String
  | full => "sink is full"
  | disconnected => "sink is disconnected"
  | timeout ms => "no answer within " ++ durationText ms

/-- Messages of which some tell their consumer to end. -/
class BusMessage (α : Type) where
  isQuit : α → Bool

instance : BusMessage Command := ⟨Command.isQuit⟩

instance : BusMessage Event := ⟨fun _ => false⟩

/-- Whether the handler of a pass wants more messages. -/
inductive Flow where
  | go
  | stop
deriving DecidableEq, Inhabited

/-- A bounded queue, and whether it still has a consumer. -/
structure Sink (α : Type) where
  capacity : Nat
  queue : List α := []
  isOpen : Bool := true
deriving Inhabited

namespace Sink

variable {α σ : Type}

/-- The capacity of a sink for which none is asked. -/
def defaultCapacity : Nat := 1024

/-- An empty sink, which holds at least one message. -/
def new (capacity : Nat := defaultCapacity) : Sink α := { capacity := max capacity 1 }

def isFull (s : Sink α) : Bool := s.capacity ≤ s.queue.length

/-- Queues a message if there is room and a consumer. -/
def offer (s : Sink α) (message : α) : Except BusError (Sink α) :=
  if !s.isOpen then .error .disconnected
  else if s.isFull then .error .full
  else .ok { s with queue := s.queue ++ [message] }

/-- Queues a message, or drops it. -/
def put (s : Sink α) (message : α) : Sink α :=
  match s.offer message with
  | .ok s => s
  | .error _ => s

/-- Takes the first message. -/
def next? (s : Sink α) : Option α × Sink α :=
  match s.queue with
  | [] => (none, s)
  | m :: rest => (some m, { s with queue := rest })

/-- Takes all messages. -/
def drain (s : Sink α) : List α × Sink α := (s.queue, { s with queue := [] })

/-- The consumer goes away; nobody will take what is queued. -/
def close (s : Sink α) : Sink α := { s with isOpen := false, queue := [] }

/-! ## Passes -/

/-- How a pass went. -/
structure Pass where
  handled : Nat
  keepRunning : Bool
deriving DecidableEq, Inhabited

/-- Handles at most a number of messages. A message to quit ends the pass unseen. The
handler keeps a state, and answers with messages for the very sink. -/
def passUpTo [BusMessage α] (handle : σ → α → σ × List α × Flow) :
    Nat → σ → Sink α → Pass × σ × Sink α
  | 0, state, s => (⟨0, true⟩, state, s)
  | n + 1, state, s =>
    match s.next? with
    | (none, s) => (⟨0, true⟩, state, s)
    | (some m, s) =>
      if BusMessage.isQuit m then (⟨1, false⟩, state, s)
      else
        let (state, back, flow) := handle state m
        let s := back.foldl put s
        match flow with
        | .stop => (⟨1, false⟩, state, s)
        | .go =>
          let (pass, state, s) := passUpTo handle n state s
          (⟨pass.handled + 1, pass.keepRunning⟩, state, s)

/-- Handles the messages that are queued when the pass begins. -/
def pass [BusMessage α] (handle : σ → α → σ × List α × Flow) (state : σ) (s : Sink α) :
    Pass × σ × Sink α :=
  passUpTo handle s.queue.length state s

/-- Discards messages up to the first that satisfies a test, and takes that. -/
def takeFirst (test : α → Bool) (s : Sink α) : Option α × Sink α :=
  match s.queue.dropWhile (!test ·) with
  | [] => (none, { s with queue := [] })
  | m :: rest => (some m, { s with queue := rest })

end Sink

end Mediatheque
