import Mediatheque.Bus.Hub
import Mediatheque.Proofs.Bus.Sink

/-!
# What is on a bus

A message that is published is put into each sink as often as the hub has connections to it
(`sink_publish`). Sinks and hubs come at places of their own, and keep them.
-/

namespace Mediatheque

namespace Bus

variable {α : Type}

theorem sink_setSink (b : Bus α) (place : Nat) (s : Sink α) (q : Nat) :
    (b.setSink place s).sink q = if q = place ∧ place < b.sinks.length then s else b.sink q := by
  rw [sink, setSink, List.getElem?_set]
  by_cases hq : q = place
  · subst hq
    by_cases hlt : q < b.sinks.length
    · simp [hlt]
    · rw [if_pos rfl, if_neg hlt, if_neg fun h => hlt h.2, sink,
        List.getElem?_eq_none (Nat.le_of_not_lt hlt)]
  · rw [if_neg (Ne.symm hq), if_neg fun h => hq h.1]
    rfl

/-- A place that has no sink is that of one nobody listens to. -/
theorem sink_of_not_lt {b : Bus α} {place : Nat} (h : ¬ place < b.sinks.length) :
    b.sink place = { capacity := 1, isOpen := false } := by
  rw [sink, List.getElem?_eq_none (Nat.le_of_not_lt h)]
  rfl

/-- A message for one place reaches the sink there and no other. -/
theorem sink_put (b : Bus α) (place : Nat) (m : α) (q : Nat) :
    (b.put place m).sink q = if q = place then (b.sink place).put m else b.sink q := by
  rw [put, sink_setSink]
  by_cases hlt : place < b.sinks.length
  · simp [hlt]
  · rw [if_neg fun h => hlt h.2]
    split
    · rename_i hq
      rw [hq, sink_of_not_lt hlt]
      rfl
    · rfl

theorem setSink_sink {b : Bus α} {place : Nat} (h : place < b.sinks.length) :
    b.setSink place (b.sink place) = b := by
  rw [setSink, sink, List.getElem?_eq_getElem h]
  exact congrArg (fun sinks => { b with sinks := sinks }) (List.set_getElem_self h)

theorem setSink_setSink (b : Bus α) (place : Nat) (s s' : Sink α) :
    (b.setSink place s).setSink place s' = b.setSink place s' := by
  rw [setSink, setSink, List.set_set]
  rfl

theorem length_sinks_setSink (b : Bus α) (place : Nat) (s : Sink α) :
    (b.setSink place s).sinks.length = b.sinks.length :=
  List.length_set

/-! ## Publishing -/

theorem sink_foldl_put (m : α) (connections : List (Nat × Nat)) (b : Bus α) (q : Nat) :
    (connections.foldl (fun b c => b.put c.2 m) b).sink q =
      (List.replicate (connections.countP (·.2 = q)) m).foldl Sink.put (b.sink q) := by
  induction connections generalizing b with
  | nil => rfl
  | cons c rest ih =>
    rw [List.foldl_cons, ih, sink_put, List.countP_cons]
    by_cases hq : c.2 = q
    · rw [if_pos hq.symm, if_pos (decide_eq_true hq), hq, List.replicate_succ, List.foldl_cons]
    · rw [if_neg (Ne.symm hq), if_neg (by simpa using hq), Nat.add_zero]

/-- A sink is put one copy into for each of its connections to the hub. -/
theorem sink_publish (b : Bus α) (hub : Nat) (m : α) (q : Nat) :
    (b.publish hub m).sink q =
      (List.replicate ((b.hub hub).connections.countP (·.2 = q)) m).foldl Sink.put (b.sink q) :=
  sink_foldl_put m _ b q

theorem mem_queue_publish {b : Bus α} {hub q : Nat} {m a : α}
    (h : a ∈ ((b.publish hub m).sink q).queue) : a ∈ (b.sink q).queue ∨ a = m := by
  rw [sink_publish] at h
  rcases Sink.mem_queue_foldl_put h with hold | hnew
  · exact .inl hold
  · exact .inr (List.eq_of_mem_replicate hnew)

theorem mem_queue_publish_of_mem {b : Bus α} {hub q : Nat} (m : α) {a : α}
    (h : a ∈ (b.sink q).queue) : a ∈ ((b.publish hub m).sink q).queue := by
  obtain ⟨taken, -, hqueue⟩ := Sink.exists_queue_foldl_put
    (List.replicate ((b.hub hub).connections.countP (·.2 = q)) m) (b.sink q)
  rw [sink_publish, hqueue]
  exact List.mem_append_left taken h

/-! ## Sinks that come -/

theorem sink_addSink (b : Bus α) (capacity q : Nat) :
    (b.addSink capacity).1.sink q = if q = b.sinks.length then Sink.new capacity else b.sink q := by
  rw [sink, addSink]
  by_cases hq : q = b.sinks.length
  · rw [if_pos hq, hq, List.getElem?_concat_length]
    rfl
  · rw [if_neg hq, sink]
    simp only [List.getElem?_append, List.getElem?_singleton]
    split
    · rfl
    · rename_i hlt
      rw [if_neg (by omega), List.getElem?_eq_none (Nat.le_of_not_lt hlt)]

/-- A subscription begins with an empty queue. -/
theorem sink_subscribe (b : Bus α) (hub : Nat) :
    (b.subscribe hub).1.sink (b.subscribe hub).2.sink = Sink.new :=
  (sink_addSink b _ _).trans (if_pos rfl)

/-! ## Hubs -/

theorem hub_setHub (b : Bus α) (place : Nat) (h : Hub) (q : Nat) :
    (b.setHub place h).hub q = if q = place ∧ place < b.hubs.length then h else b.hub q := by
  rw [hub, setHub, List.getElem?_set]
  by_cases hq : q = place
  · subst hq
    by_cases hlt : q < b.hubs.length
    · simp [hlt]
    · rw [if_pos rfl, if_neg hlt, if_neg fun h => hlt h.2, hub,
        List.getElem?_eq_none (Nat.le_of_not_lt hlt)]
  · rw [if_neg (Ne.symm hq), if_neg fun h => hq h.1]
    rfl

/-- A hub begins without connections, as a place does that has no hub. -/
theorem hub_addHub (b : Bus α) (q : Nat) : b.addHub.1.hub q = b.hub q := by
  rw [hub, addHub, hub]
  simp only [List.getElem?_append, List.getElem?_singleton]
  split
  · rfl
  · rename_i hlt
    rw [List.getElem?_eq_none (Nat.le_of_not_lt hlt)]
    split <;> rfl

theorem hub_connect {b : Bus α} {place : Nat} (h : place < b.hubs.length) (sink q : Nat) :
    (b.connect place sink).1.hub q =
      if q = place then
        { connected := (b.hub place).connected + 1
          connections := (b.hub place).connections ++ [((b.hub place).connected + 1, sink)] }
      else b.hub q := by
  rw [connect, hub_setHub]
  simp only [h, and_true]

theorem hub_disconnect (b : Bus α) (place number q : Nat) :
    (b.disconnect place number).hub q =
      if q = place then
        { b.hub place with
          connections := (b.hub place).connections.filter (·.1 ≠ number) }
      else b.hub q := by
  rw [disconnect, hub_setHub]
  by_cases hlt : place < b.hubs.length
  · simp only [hlt, and_true]
  · rw [if_neg fun h => hlt h.2]
    split
    · rename_i hq
      rw [hq, hub, List.getElem?_eq_none (Nat.le_of_not_lt hlt)]
      rfl
    · rfl

end Bus

end Mediatheque
