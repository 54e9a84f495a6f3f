import Mediatheque.Bus.Sink

/-!
# Hubs

A hub offers a message to every sink that is connected to it, in the order of the
connections. The connections of a hub are numbered from one, and no number is used
again. Sinks and hubs refer to one another, so that a bus holds them all and knows
them by their place.

* `Bus.connect`, `Bus.disconnect`, `Bus.publish`;
* `Bus.subscribe`: a fresh sink with a connection of its own.
-/

namespace Mediatheque

/-- The connections of a hub, each with its number and the place of its sink. -/
structure Hub where
  connected : Nat := 0
  connections : List (Nat × Nat) := []
deriving DecidableEq, Inhabited

/-- Sinks and hubs for one kind of message. -/
structure Bus (α : Type) where
  sinks : List (Sink α) := []
  hubs : List Hub := []
deriving Inhabited

/-- A sink that is connected to a hub for as long as it lives. -/
structure Subscription where
  sink : Nat
  hub : Nat
  connection : Nat
deriving DecidableEq, Inhabited

namespace Bus

variable {α : Type}

/-- Adds a sink, and tells its place. -/
def addSink (b : Bus α) (capacity : Nat := Sink.defaultCapacity) : Bus α × Nat :=
  ({ b with sinks := b.sinks ++ [Sink.new capacity] }, b.sinks.length)

/-- Adds a hub, and tells its place. -/
def addHub (b : Bus α) : Bus α × Nat := ({ b with hubs := b.hubs ++ [{}] }, b.hubs.length)

/-- The sink at a place, or one that nobody listens to. -/
def sink (b : Bus α) (place : Nat) : Sink α :=
  (b.sinks[place]?).getD { capacity := 1, isOpen := false }

/-- The hub at a place, or one without connections. -/
def hub (b : Bus α) (place : Nat) : Hub := (b.hubs[place]?).getD {}

def setSink (b : Bus α) (place : Nat) (s : Sink α) : Bus α :=
  { b with sinks := b.sinks.set place s }

def setHub (b : Bus α) (place : Nat) (h : Hub) : Bus α := { b with hubs := b.hubs.set place h }

/-- Queues a message at a sink, or drops it. -/
def put (b : Bus α) (place : Nat) (message : α) : Bus α :=
  b.setSink place ((b.sink place).put message)

/-- Connects a sink to a hub, and tells the number of the connection. -/
def connect (b : Bus α) (hub sink : Nat) : Bus α × Nat :=
  let h := b.hub hub
  let number := h.connected + 1
  (b.setHub hub { connected := number, connections := h.connections ++ [(number, sink)] }, number)

/-- Ends a connection. What the sink has queued stays there. -/
def disconnect (b : Bus α) (hub connection : Nat) : Bus α :=
  let h := b.hub hub
  b.setHub hub { h with connections := h.connections.filter (·.1 ≠ connection) }

/-- Offers a message to every connected sink in turn. -/
def publish (b : Bus α) (hub : Nat) (message : α) : Bus α :=
  (b.hub hub).connections.foldl (fun b c => b.put c.2 message) b

def subscriberCount (b : Bus α) (hub : Nat) : Nat := (b.hub hub).connections.length

/-- Connects a fresh sink. -/
def subscribe (b : Bus α) (hub : Nat) : Bus α × Subscription :=
  let (b, sink) := b.addSink
  let (b, connection) := b.connect hub sink
  (b, ⟨sink, hub, connection⟩)

/-- Ends a subscription together with its sink. -/
def unsubscribe (b : Bus α) (s : Subscription) : Bus α :=
  let b := b.disconnect s.hub s.connection
  b.setSink s.sink (b.sink s.sink).close

end Bus

end Mediatheque
