import Mediatheque.Bus.Hub

/-!
# Names on a bus

A bus whose sinks, hubs, connections and subscriptions have names. A name that is given
again stands for what it was given to last; a sink or subscription that it stood for
before goes away.
-/

namespace Mediatheque

/-- A bus with names for what is on it. -/
structure NamedBus (α : Type) where
  bus : Bus α := {}
  sinks : List (String × Nat) := []
  hubs : List (String × Nat) := []
  connections : List (String × Nat) := []
  subscriptions : List (String × Subscription) := []
deriving Inhabited

namespace NamedBus

variable {α : Type}

/-- Takes a name from a list. -/
def without {β : Type} (name : String) (l : List (String × β)) : List (String × β) :=
  l.filter (·.1 ≠ name)

/-! ## Sinks -/

/-- The place of a sink; a name that stands for none has the first. -/
def sinkPlace (b : NamedBus α) (name : String) : Nat := (b.sinks.lookup name).getD 0

def sink (b : NamedBus α) (name : String) : Sink α := b.bus.sink (b.sinkPlace name)

def setSink (b : NamedBus α) (name : String) (s : Sink α) : NamedBus α :=
  { b with bus := b.bus.setSink (b.sinkPlace name) s }

/-- Closes a sink, and tells whether it was open. -/
def dropSink (b : NamedBus α) (name : String) : NamedBus α × Bool :=
  match b.sinks.lookup name with
  | some place => (b.setSink name (b.bus.sink place).close, (b.bus.sink place).isOpen)
  | none => (b, false)

def addSink (b : NamedBus α) (name : String) (capacity : Nat) : NamedBus α :=
  let b := (b.dropSink name).1
  let (bus, place) := b.bus.addSink capacity
  { b with bus := bus, sinks := (name, place) :: b.sinks }

/-! ## Hubs -/

def hubPlace (b : NamedBus α) (name : String) : Nat := (b.hubs.lookup name).getD 0

def addHub (b : NamedBus α) (name : String) : NamedBus α :=
  let (bus, place) := b.bus.addHub
  { b with bus := bus, hubs := (name, place) :: b.hubs }

def subscriberCount (b : NamedBus α) (hub : String) : Nat :=
  b.bus.subscriberCount (b.hubPlace hub)

def publish (b : NamedBus α) (hub : String) (message : α) : NamedBus α :=
  { b with bus := b.bus.publish (b.hubPlace hub) message }

def connect (b : NamedBus α) (hub sink connection : String) : NamedBus α :=
  let (bus, number) := b.bus.connect (b.hubPlace hub) (b.sinkPlace sink)
  { b with bus := bus, connections := (connection, number) :: b.connections }

/-- Ends the connection of a hub that has the number of a named one. -/
def disconnect (b : NamedBus α) (hub connection : String) : NamedBus α :=
  match b.connections.lookup connection with
  | some number => { b with bus := b.bus.disconnect (b.hubPlace hub) number }
  | none => b

/-! ## Subscriptions -/

/-- Ends a subscription, and tells whether there was one. -/
def unsubscribe (b : NamedBus α) (name : String) : NamedBus α × Bool :=
  match b.subscriptions.lookup name with
  | some s => ({ b with
      bus := b.bus.unsubscribe s
      subscriptions := without name b.subscriptions }, true)
  | none => (b, false)

/-- Subscribes, and then ends the subscription that had the name before. -/
def subscribe (b : NamedBus α) (hub name : String) : NamedBus α :=
  let (bus, s) := b.bus.subscribe (b.hubPlace hub)
  let b := ({ b with bus := bus }.unsubscribe name).1
  { b with subscriptions := (name, s) :: b.subscriptions }

end NamedBus

end Mediatheque
