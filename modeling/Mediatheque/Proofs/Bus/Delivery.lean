import Mathlib.Data.List.Nodup
import Mediatheque.Proofs.Bus.Traffic

/-!
# What is delivered

From the acts on a bus one can tell what each sink has accepted and delivered, which connections
stand, and what a publication has reached, without a look at the bus. The bus is what the acts tell
(`Kept`): every step keeps that (`kept_step`), so it holds in the course of any run (`kept_runs`).
-/

namespace Mediatheque

namespace Bus

variable {α : Type}

/-! ## What acts tell -/

section

variable (acts : List (Act α))

/-- The capacities of the sinks that have come, by their places. -/
def capacities : List Nat := acts.filterMap fun
  | .addSink capacity => some capacity
  | _ => none

/-- The places of the sinks that have gone. -/
def dropped : List Nat := acts.filterMap fun
  | .drop place => some place
  | _ => none

/-- The messages that a sink has accepted. -/
def accepted (place : Nat) : List α := acts.filterMap fun
  | .offer _ q m none => if q = place then some m else none
  | _ => none

/-- The messages that have been taken from a sink. -/
def delivered (place : Nat) : List α := acts.filterMap fun
  | .take q (some m) => if q = place then some m else none
  | _ => none

/-- The numbers that a hub has given to connections. -/
def issued (hub : Nat) : List Nat := acts.filterMap fun
  | .connect h _ number => if h = hub then some number else none
  | _ => none

/-- The numbers of the connections of a hub that were to be ended. -/
def ended (hub : Nat) : List Nat := acts.filterMap fun
  | .disconnect h number => if h = hub then some number else none
  | _ => none

/-- The messages that hubs have published, by the numbers of the publications. -/
def published : List (Nat × α) := acts.filterMap fun
  | .publish hub m => some (hub, m)
  | _ => none

/-- What a publication has offered: the number of a connection, the place of its sink, and the
message. -/
def reached (k : Nat) : List (Nat × Nat × α) := acts.filterMap fun
  | .offer (some (j, number)) place m _ => if j = k then some (number, place, m) else none
  | _ => none

end

/-- The connections of a hub that have been made and not ended since, in their order. -/
def standing (hub : Nat) : List (Act α) → List (Nat × Nat)
  | [] => []
  | .connect h place number :: later =>
    if h = hub ∧ number ∉ ended later hub then (number, place) :: standing hub later
    else standing hub later
  | _ :: later => standing hub later

/-- One copy of a message for each of some connections. -/
def copies (m : α) (connections : List (Nat × Nat)) : List (Nat × Nat × α) :=
  connections.map fun c => (c.1, c.2, m)

/-- A sink has come, and has not gone. -/
def Alive (acts : List (Act α)) (place : Nat) : Prop :=
  place < (capacities acts).length ∧ place ∉ dropped acts

instance (acts : List (Act α)) (place : Nat) : Decidable (Alive acts place) :=
  inferInstanceAs (Decidable (_ ∧ _))

/-- How many messages a sink can hold, which is one at least. -/
def capacityAt (acts : List (Act α)) (place : Nat) : Nat :=
  max ((capacities acts)[place]?.getD 0) 1

/-- The messages that a sink has accepted and not delivered. -/
def waiting (acts : List (Act α)) (place : Nat) : List α :=
  if Alive acts place then (accepted acts place).drop (delivered acts place).length else []

/-- What is to become of a message that is offered to a sink. -/
def verdict (acts : List (Act α)) (place : Nat) : Option BusError :=
  if ¬ Alive acts place then some .disconnected
  else if capacityAt acts place ≤ (waiting acts place).length then some .full
  else none

/-! ### One act more -/

section

variable (acts more : List (Act α)) (place hub k : Nat)

theorem capacities_append : capacities (acts ++ more) = capacities acts ++ capacities more :=
  List.filterMap_append

theorem dropped_append : dropped (acts ++ more) = dropped acts ++ dropped more :=
  List.filterMap_append

theorem accepted_append :
    accepted (acts ++ more) place = accepted acts place ++ accepted more place :=
  List.filterMap_append

theorem delivered_append :
    delivered (acts ++ more) place = delivered acts place ++ delivered more place :=
  List.filterMap_append

theorem issued_append : issued (acts ++ more) hub = issued acts hub ++ issued more hub :=
  List.filterMap_append

theorem ended_append : ended (acts ++ more) hub = ended acts hub ++ ended more hub :=
  List.filterMap_append

theorem published_append : published (acts ++ more) = published acts ++ published more :=
  List.filterMap_append

theorem reached_append : reached (acts ++ more) k = reached acts k ++ reached more k :=
  List.filterMap_append

/-- Later acts may end connections, and make others. -/
theorem standing_append :
    standing hub (acts ++ more) =
      (standing hub acts).filter (·.1 ∉ ended more hub) ++ standing hub more := by
  induction acts with
  | nil => rfl
  | cons a acts ih =>
    cases a with
    | connect h place number =>
      simp only [List.cons_append, standing, ended_append, List.mem_append, not_or, ih]
      -- One that the later acts end is no longer among those that stand; one that has been ended
      -- before does not come back.
      by_cases hstands : h = hub ∧ number ∉ ended acts hub
      · by_cases hlater : number ∉ ended more hub
        · rw [if_pos ⟨hstands.1, hstands.2, hlater⟩, if_pos hstands,
            List.filter_cons_of_pos (by simpa using hlater), List.cons_append]
        · rw [if_neg fun h => hlater h.2.2, if_pos hstands,
            List.filter_cons_of_neg (by simpa using hlater)]
      · rw [if_neg fun h => hstands ⟨h.1, h.2.1⟩, if_neg hstands]
    | _ => exact ih

end

/-- The connections that stand have numbers that were given. -/
theorem sublist_issued (hub : Nat) (acts : List (Act α)) :
    ((standing hub acts).map (·.1)).Sublist (issued acts hub) := by
  induction acts with
  | nil => exact .slnil
  | cons a acts ih =>
    cases a with
    | connect h place number =>
      rw [standing, issued, List.filterMap_cons]
      by_cases hhub : h = hub
      · simp only [hhub, true_and, if_true]
        split
        · exact ih.cons_cons number
        · exact ih.cons number
      · rw [if_neg fun h => hhub h.1]
        simp only [if_neg hhub]
        exact ih
    | _ => exact ih

/-! ## Sinks -/

/-- A sink is what the acts tell of its place. -/
structure Told (acts : List (Act α)) (place : Nat) (s : Sink α) : Prop where
  capacity : s.capacity = capacityAt acts place
  isOpen : s.isOpen = true ↔ Alive acts place
  fifo : Alive acts place → delivered acts place ++ s.queue = accepted acts place
  gone : ¬ Alive acts place → s.queue = []
  delivers : delivered acts place <+: accepted acts place
  bounded : s.queue.length ≤ s.capacity

theorem Told.waiting_eq {acts : List (Act α)} {place : Nat} {s : Sink α} (h : Told acts place s) :
    waiting acts place = s.queue := by
  rw [waiting]
  split
  · rename_i halive
    rw [← h.fifo halive, List.drop_left]
  · rename_i hgone
    exact (h.gone hgone).symm

/-- A message is accepted if and only if the sink has room and a consumer. -/
theorem Told.refusal_eq {acts : List (Act α)} {place : Nat} {s : Sink α} (h : Told acts place s)
    (m : α) : s.refusal m = verdict acts place := by
  rw [verdict, h.waiting_eq, ← h.capacity, Sink.refusal, Sink.offer, Sink.isFull]
  by_cases halive : Alive acts place
  · rw [h.isOpen.2 halive, if_neg (not_not_intro halive)]
    by_cases hfull : s.capacity ≤ s.queue.length <;> simp [hfull]
  · rw [Bool.eq_false_iff.2 (mt h.isOpen.1 halive), if_pos halive]
    rfl

section

variable {acts others : List (Act α)} {place : Nat} {s : Sink α} {a : Act α}

theorem alive_congr (hcapacities : (capacities others)[place]? = (capacities acts)[place]?)
    (hdropped : place ∈ dropped others ↔ place ∈ dropped acts) :
    Alive others place ↔ Alive acts place := by
  rw [Alive, Alive, hdropped, ← Nat.not_le, ← Nat.not_le, ← List.getElem?_eq_none_iff,
    ← List.getElem?_eq_none_iff, hcapacities]

/-- What is told of a sink by the acts is told of it by others that agree on it. -/
theorem Told.congr (h : Told acts place s)
    (hcapacities : (capacities others)[place]? = (capacities acts)[place]?)
    (hdropped : place ∈ dropped others ↔ place ∈ dropped acts)
    (haccepted : accepted others place = accepted acts place)
    (hdelivered : delivered others place = delivered acts place) : Told others place s := by
  have halive := alive_congr hcapacities hdropped
  refine ⟨?_, h.isOpen.trans halive.symm, ?_, h.gone ∘ mt halive.2, ?_, h.bounded⟩
  · rw [capacityAt, hcapacities]
    exact h.capacity
  · rw [halive, haccepted, hdelivered]
    exact h.fifo
  · rw [haccepted, hdelivered]
    exact h.delivers

/-- An act that has nothing to do with a sink leaves what is told of it. -/
theorem Told.silent (h : Told acts place s) (hcapacities : capacities [a] = [])
    (hdropped : place ∉ dropped [a]) (haccepted : accepted [a] place = [])
    (hdelivered : delivered [a] place = []) : Told (acts ++ [a]) place s := by
  refine h.congr ?_ ?_ ?_ ?_
  · rw [capacities_append, hcapacities, List.append_nil]
  · rw [dropped_append, List.mem_append, or_iff_left hdropped]
  · rw [accepted_append, haccepted, List.append_nil]
  · rw [delivered_append, hdelivered, List.append_nil]

/-- Nothing has been taken of what nobody accepted. -/
theorem Told.delivered_eq_nil (h : Told acts place s) (hnone : accepted acts place = []) :
    delivered acts place = [] :=
  List.eq_nil_of_prefix_nil (hnone ▸ h.delivers)

/-- A sink that comes has accepted and delivered nothing. -/
theorem told_new {capacity : Nat} (hcapacity : (capacities acts)[place]? = some capacity)
    (hdropped : place ∉ dropped acts) (haccepted : accepted acts place = [])
    (hdelivered : delivered acts place = []) : Told acts place (Sink.new capacity) := by
  have halive : Alive acts place :=
    ⟨(List.getElem?_eq_some_iff.1 hcapacity).1, hdropped⟩
  refine ⟨?_, iff_of_true rfl halive, fun _ => ?_, fun hgone => absurd halive hgone,
    ⟨[], (List.append_nil _).trans (hdelivered.trans haccepted.symm)⟩, Nat.zero_le _⟩
  · rw [capacityAt, hcapacity]
    rfl
  · rw [haccepted, hdelivered]
    rfl

/-- A sink that is alive goes on with what it has accepted and not delivered. -/
theorem Told.goes_on (h : Told acts place s) (halive : Alive acts place)
    (hcapacities : capacities [a] = []) (hdropped : dropped [a] = []) {queue : List α}
    (hfifo : delivered (acts ++ [a]) place ++ queue = accepted (acts ++ [a]) place)
    (hroom : queue.length ≤ s.capacity) :
    Told (acts ++ [a]) place { s with queue := queue } := by
  have hsame : capacities (acts ++ [a]) = capacities acts := by
    rw [capacities_append, hcapacities, List.append_nil]
  have halive' : Alive (acts ++ [a]) place := by
    rw [Alive, hsame, dropped_append, hdropped, List.append_nil]
    exact halive
  refine ⟨?_, iff_of_true (h.isOpen.2 halive) halive', fun _ => hfifo,
    fun hgone => absurd halive' hgone, ⟨queue, hfifo⟩, hroom⟩
  rw [capacityAt, hsame]
  exact h.capacity

theorem told_put (h : Told acts place s) (source : Option (Nat × Nat)) (m : α) :
    Told (acts ++ [.offer source place m (s.refusal m)]) place (s.put m) := by
  cases hrefusal : s.refusal m with
  | some e =>
    rw [Sink.put_of_refusal hrefusal]
    exact h.silent rfl List.not_mem_nil rfl rfl
  | none =>
    have haccepts := Sink.refusal_eq_none.1 hrefusal
    obtain ⟨hopen, hroom⟩ := Sink.accepts_eq_true.1 haccepts
    have halive := h.isOpen.1 hopen
    rw [Sink.put_eq, if_pos haccepts]
    refine h.goes_on halive rfl rfl ?_ (by rwa [List.length_append])
    have hone : accepted [.offer source place m none] place = [m] := by simp [accepted]
    have hnone : delivered [.offer source place m none] place = [] := rfl
    rw [delivered_append, accepted_append, hone, hnone, ← h.fifo halive]
    simp only [List.append_nil, List.append_assoc]

theorem told_next? (h : Told acts place s) :
    Told (acts ++ [.take place s.next?.1]) place s.next?.2 := by
  rw [Sink.next?]
  split
  · exact h.silent rfl List.not_mem_nil rfl rfl
  · rename_i m rest hqueue
    have halive : Alive acts place := by
      by_contra hgone
      cases (h.gone hgone).symm.trans hqueue
    refine h.goes_on halive rfl rfl ?_ ?_
    · have hone : delivered [.take place (some m)] place = [m] := by simp [delivered]
      have hnone : accepted [.take place (some m)] place = [] := rfl
      rw [delivered_append, accepted_append, hone, hnone, ← h.fifo halive, hqueue]
      simp only [List.append_nil, List.append_assoc, List.singleton_append]
    · have hroom := h.bounded
      rw [hqueue] at hroom
      exact Nat.le_of_succ_le hroom

theorem told_close (h : Told acts place s) : Told (acts ++ [.drop place]) place s.close := by
  have hgone : ¬ Alive (acts ++ [.drop place]) place := by
    rw [Alive, dropped_append, List.mem_append, not_and_not_right]
    exact fun _ => .inr List.mem_cons_self
  refine ⟨?_, ?_, fun halive => absurd halive hgone, fun _ => rfl, ?_, Nat.zero_le _⟩
  · have hnone : capacities [(.drop place : Act α)] = [] := rfl
    rw [capacityAt, capacities_append, hnone, List.append_nil]
    exact h.capacity
  · exact iff_of_false Bool.false_ne_true hgone
  · have haccepted : accepted [(.drop place : Act α)] place = [] := rfl
    have hdelivered : delivered [(.drop place : Act α)] place = [] := rfl
    rw [delivered_append, accepted_append, haccepted, hdelivered, List.append_nil,
      List.append_nil]
    exact h.delivers

end

/-- The sinks of a bus are what the acts tell. -/
structure SinksTold (acts : List (Act α)) (b : Bus α) : Prop where
  length : (capacities acts).length = b.sinks.length
  sinks : ∀ place, Told acts place (b.sink place)
  fresh : ∀ place, b.sinks.length ≤ place → accepted acts place = [] ∧ place ∉ dropped acts

/-- What is done at one place. -/
theorem SinksTold.at_place {acts : List (Act α)} {b : Bus α} (h : SinksTold acts b) {a : Act α}
    {place : Nat} {s : Sink α} (htold : Told (acts ++ [a]) place s)
    (hcapacities : capacities [a] = [])
    (hsilent : ∀ q, q ≠ place → q ∉ dropped [a] ∧ accepted [a] q = [] ∧ delivered [a] q = [])
    (hplace : place < b.sinks.length) :
    SinksTold (acts ++ [a]) (b.setSink place s) := by
  refine ⟨?_, fun q => ?_, fun q hq => ?_⟩
  · rw [capacities_append, hcapacities, List.append_nil, length_sinks_setSink]
    exact h.length
  · rw [sink_setSink]
    by_cases hq : q = place
    · rw [if_pos ⟨hq, hplace⟩, hq]
      exact htold
    · rw [if_neg fun h => hq h.1]
      obtain ⟨hdropped, haccepted, hdelivered⟩ := hsilent q hq
      exact (h.sinks q).silent hcapacities hdropped haccepted hdelivered
  · rw [length_sinks_setSink] at hq
    obtain ⟨hdropped, haccepted, -⟩ := hsilent q (by omega)
    rw [accepted_append, haccepted, List.append_nil, dropped_append, List.mem_append,
      or_iff_left hdropped]
    exact h.fresh q hq

/-- What has nothing to do with sinks. -/
theorem SinksTold.silent {acts : List (Act α)} {b b' : Bus α} (h : SinksTold acts b) {a : Act α}
    (hsinks : b'.sinks = b.sinks) (hcapacities : capacities [a] = []) (hdropped : dropped [a] = [])
    (hsilent : ∀ q, accepted [a] q = [] ∧ delivered [a] q = []) :
    SinksTold (acts ++ [a]) b' := by
  refine ⟨?_, fun q => ?_, fun q hq => ?_⟩
  · rw [capacities_append, hcapacities, List.append_nil, hsinks]
    exact h.length
  · have hsink : b'.sink q = b.sink q := by rw [sink, sink, hsinks]
    rw [hsink]
    exact (h.sinks q).silent hcapacities (hdropped ▸ List.not_mem_nil) (hsilent q).1 (hsilent q).2
  · rw [accepted_append, (hsilent q).1, List.append_nil, dropped_append, hdropped,
      List.append_nil]
    exact h.fresh q (hsinks ▸ hq)

theorem SinksTold.addSink {acts : List (Act α)} {b : Bus α} (h : SinksTold acts b)
    (capacity : Nat) : SinksTold (acts ++ [.addSink capacity]) (b.addSink capacity).1 := by
  have hcapacities : capacities (acts ++ [.addSink capacity]) = capacities acts ++ [capacity] :=
    capacities_append ..
  have hdropped : dropped (acts ++ [.addSink capacity]) = dropped acts :=
    (dropped_append ..).trans (List.append_nil _)
  have haccepted (q : Nat) : accepted (acts ++ [.addSink capacity]) q = accepted acts q :=
    (accepted_append ..).trans (List.append_nil _)
  have hdelivered (q : Nat) : delivered (acts ++ [.addSink capacity]) q = delivered acts q :=
    (delivered_append ..).trans (List.append_nil _)
  have hlength : (b.addSink capacity).1.sinks.length = b.sinks.length + 1 :=
    List.length_append
  refine ⟨?_, fun q => ?_, fun q hq => ?_⟩
  · rw [hcapacities, List.length_append, h.length, hlength]
    rfl
  · rw [sink_addSink]
    split
    · rename_i hq
      obtain ⟨hnone, hstays⟩ := h.fresh q (Nat.le_of_eq hq.symm)
      refine told_new ?_ (hdropped ▸ hstays) ((haccepted q).trans hnone)
        ((hdelivered q).trans ((h.sinks q).delivered_eq_nil hnone))
      rw [hcapacities, hq, ← h.length, List.getElem?_concat_length]
    · rename_i hq
      refine (h.sinks q).congr ?_ (by rw [hdropped]) (haccepted q) (hdelivered q)
      rw [hcapacities, List.getElem?_append]
      split
      · rfl
      · rename_i hlt
        have hlength := h.length
        rw [List.getElem?_eq_none (by simpa using by omega), List.getElem?_eq_none (by omega)]
  · rw [haccepted, hdropped]
    exact h.fresh q (by omega)

theorem accepted_offer_of_ne {place q : Nat} (hq : q ≠ place) (source : Option (Nat × Nat)) (m : α)
    (refusal : Option BusError) : accepted [.offer source place m refusal] q = [] := by
  cases refusal with
  | none => simp [accepted, Ne.symm hq]
  | some e => rfl

theorem delivered_take_of_ne {place q : Nat} (hq : q ≠ place) (message : Option α) :
    delivered [.take place message] q = [] := by
  cases message with
  | none => rfl
  | some m => simp [delivered, Ne.symm hq]

theorem SinksTold.put {acts : List (Act α)} {b : Bus α} (h : SinksTold acts b)
    (source : Option (Nat × Nat)) (place : Nat) (m : α) :
    SinksTold (acts ++ [.offer source place m ((b.sink place).refusal m)]) (b.put place m) := by
  by_cases hplace : place < b.sinks.length
  · exact h.at_place (told_put (h.sinks place) source m) rfl
      (fun _ hq => ⟨List.not_mem_nil, accepted_offer_of_ne hq source m _, rfl⟩) hplace
  · -- Nobody listens at a place where no sink has come.
    rw [sink_of_not_lt hplace]
    refine h.silent ?_ rfl rfl fun q => ⟨rfl, rfl⟩
    exact List.set_eq_of_length_le (Nat.le_of_not_lt hplace)

theorem SinksTold.take {acts : List (Act α)} {b : Bus α} (h : SinksTold acts b) {place : Nat}
    (hplace : place < b.sinks.length) :
    SinksTold (acts ++ [.take place (b.sink place).next?.1])
      (b.setSink place (b.sink place).next?.2) :=
  h.at_place (told_next? (h.sinks place)) rfl
    (fun _ hq => ⟨List.not_mem_nil, rfl, delivered_take_of_ne hq _⟩) hplace

theorem SinksTold.drop {acts : List (Act α)} {b : Bus α} (h : SinksTold acts b) {place : Nat}
    (hplace : place < b.sinks.length) :
    SinksTold (acts ++ [.drop place]) (b.setSink place (b.sink place).close) :=
  h.at_place (told_close (h.sinks place)) rfl
    (fun _ hq => ⟨by simpa [dropped] using hq, rfl, rfl⟩) hplace

/-! ## Hubs -/

/-- A hub is what the acts tell of its place. Its connections are numbered from one on. -/
structure Wired (acts : List (Act α)) (place : Nat) (h : Hub) : Prop where
  issued : issued acts place = List.range' 1 h.connected
  connections : h.connections = standing place acts

section

variable {acts : List (Act α)} {place : Nat} {h : Hub} {a : Act α}

theorem Wired.silent (hw : Wired acts place h) (hissued : Bus.issued [a] place = [])
    (hended : ended [a] place = []) (hstanding : standing place [a] = []) :
    Wired (acts ++ [a]) place h := by
  refine ⟨?_, ?_⟩
  · rw [issued_append, hissued, List.append_nil]
    exact hw.issued
  · rw [standing_append, hended, hstanding, List.append_nil, hw.connections]
    simp

theorem wired_connect (hw : Wired acts place h) (sink : Nat) :
    Wired (acts ++ [.connect place sink (h.connected + 1)]) place
      { connected := h.connected + 1
        connections := h.connections ++ [(h.connected + 1, sink)] } := by
  have hissued : Bus.issued [(.connect place sink (h.connected + 1) : Act α)] place =
      [h.connected + 1] := by simp [Bus.issued]
  have hended : ended [(.connect place sink (h.connected + 1) : Act α)] place = [] := rfl
  have hstanding : standing place [(.connect place sink (h.connected + 1) : Act α)] =
      [(h.connected + 1, sink)] := by simp [standing, ended]
  refine ⟨?_, ?_⟩
  · rw [issued_append, hw.issued, hissued, List.range'_1_concat, Nat.add_comm 1]
  · rw [standing_append, hended, hstanding, hw.connections]
    simp

theorem wired_disconnect (hw : Wired acts place h) (number : Nat) :
    Wired (acts ++ [.disconnect place number]) place
      { h with connections := h.connections.filter (·.1 ≠ number) } := by
  have hissued : Bus.issued [(.disconnect place number : Act α)] place = [] := rfl
  have hended : ended [(.disconnect place number : Act α)] place = [number] := by simp [ended]
  refine ⟨?_, ?_⟩
  · rw [issued_append, hissued, List.append_nil]
    exact hw.issued
  · rw [standing_append, hended, hw.connections]
    simp [standing]

end

/-! ## Steps -/

namespace Traffic

/-- The bus, and what is published on it, are what the acts tell. -/
structure Kept (acts : List (Act α)) (s : Traffic α) : Prop where
  sinks : SinksTold acts s.bus
  hubs : ∀ hub, Wired acts hub (s.bus.hub hub)
  publications : (published acts).length = s.publications.length
  reached : ∀ k, s.publications.length ≤ k → reached acts k = []

theorem kept_nil : Kept ([] : List (Act α)) {} := by
  refine ⟨⟨rfl, fun place => ?_, fun place _ => ⟨rfl, List.not_mem_nil⟩⟩, fun hub => ⟨rfl, rfl⟩,
    rfl, fun k _ => rfl⟩
  have hgone : ¬ Alive ([] : List (Act α)) place := fun h => Nat.not_lt_zero place h.1
  exact ⟨rfl, iff_of_false Bool.false_ne_true hgone, fun h => absurd h hgone, fun _ => rfl,
    List.prefix_rfl, Nat.zero_le _⟩

/-- What an act has to do with sinks, with hubs and with publications, taken together. -/
theorem Kept.next {acts : List (Act α)} {s s' : Traffic α} (h : Kept acts s) {a : Act α}
    (hsinks : SinksTold (acts ++ [a]) s'.bus)
    (hhubs : ∀ hub, Wired (acts ++ [a]) hub (s'.bus.hub hub))
    (hpublished : s'.publications.length = s.publications.length + (published [a]).length)
    (hreached : ∀ k, s'.publications.length ≤ k → Bus.reached [a] k = []) :
    Kept (acts ++ [a]) s' := by
  refine ⟨hsinks, hhubs, ?_, fun k hk => ?_⟩
  · rw [published_append, List.length_append, h.publications, hpublished]
  · rw [reached_append, h.reached k (by omega), hreached k hk]
    rfl

/-- Whatever is done, the acts tell what comes of it. -/
theorem kept_step {acts : List (Act α)} {s s' : Traffic α} {a : Act α} (h : Kept acts s)
    (hstep : Step s a s') : Kept (acts ++ [a]) s' := by
  cases hstep with
  | addSink capacity =>
    exact h.next (h.sinks.addSink capacity) (fun q => (h.hubs q).silent rfl rfl rfl) rfl
      fun _ _ => rfl
  | addHub =>
    refine h.next (h.sinks.silent rfl rfl rfl fun _ => ⟨rfl, rfl⟩) (fun q => ?_) rfl fun _ _ => rfl
    rw [withBus, hub_addHub]
    exact (h.hubs q).silent rfl rfl rfl
  | @offer place hplace m =>
    exact h.next (h.sinks.put none place m) (fun q => (h.hubs q).silent rfl rfl rfl) rfl
      fun _ _ => rfl
  | take hplace =>
    exact h.next (h.sinks.take hplace) (fun q => (h.hubs q).silent rfl rfl rfl) rfl
      fun _ _ => rfl
  | drop hplace =>
    exact h.next (h.sinks.drop hplace) (fun q => (h.hubs q).silent rfl rfl rfl) rfl
      fun _ _ => rfl
  | @connect hub place hhub hplace hfree =>
    refine h.next (h.sinks.silent rfl rfl rfl fun _ => ⟨rfl, rfl⟩) (fun q => ?_) rfl fun _ _ => rfl
    rw [withBus, hub_connect hhub]
    by_cases hq : q = hub
    · rw [if_pos hq, hq]
      exact wired_connect (h.hubs hub) place
    · rw [if_neg hq]
      exact (h.hubs q).silent (by simp [issued, Ne.symm hq]) rfl (by simp [standing, Ne.symm hq])
  | @disconnect hub hfree number =>
    refine h.next (h.sinks.silent rfl rfl rfl fun _ => ⟨rfl, rfl⟩) (fun q => ?_) rfl fun _ _ => rfl
    rw [withBus, hub_disconnect]
    by_cases hq : q = hub
    · rw [if_pos hq, hq]
      exact wired_disconnect (h.hubs hub) number
    · rw [if_neg hq]
      exact (h.hubs q).silent rfl (by simp [ended, Ne.symm hq]) rfl
  | @publish hub hfree m =>
    exact h.next (h.sinks.silent rfl rfl rfl fun _ => ⟨rfl, rfl⟩)
      (fun q => (h.hubs q).silent rfl rfl rfl) List.length_append fun _ _ => rfl
  | @reach k hub number place m ahead hk =>
    have hlt := (List.getElem?_eq_some_iff.1 hk).1
    refine h.next (h.sinks.put _ place m) (fun q => (h.hubs q).silent rfl rfl rfl)
      List.length_set fun j hj => ?_
    rw [List.length_set] at hj
    have hne : k ≠ j := by omega
    simp [Bus.reached, hne]

theorem kept_runs {acts more : List (Act α)} {s s' : Traffic α} (h : Kept acts s)
    (hruns : Runs s more s') : Kept (acts ++ more) s' := by
  induction hruns generalizing acts with
  | nil =>
    rw [List.append_nil]
    exact h
  | @cons s s₁ s' a more hstep _ ih =>
    rw [List.append_cons]
    exact ih (kept_step h hstep)

/-! ## Publications -/

theorem publication_step {s s' : Traffic α} {a : Act α} (hstep : Step s a s') {k hub : Nat} {m : α}
    {connections : List (Nat × Nat)} (hk : s.publications[k]? = some ⟨hub, m, connections⟩) :
    ∃ ahead, s'.publications[k]? = some ⟨hub, m, ahead⟩ ∧
      copies m connections = Bus.reached [a] k ++ copies m ahead := by
  cases hstep with
  | publish _ m' =>
    refine ⟨connections, ?_, rfl⟩
    rw [List.getElem?_append_left (List.getElem?_eq_some_iff.1 hk).1]
    exact hk
  | @reach j hub' number place m' ahead hj =>
    have hlt := (List.getElem?_eq_some_iff.1 hk).1
    by_cases hkj : j = k
    · subst hkj
      cases hj.symm.trans hk
      refine ⟨ahead, List.getElem?_set_self hlt, ?_⟩
      simp [Bus.reached, copies]
    · refine ⟨connections, (List.getElem?_set_ne hkj).trans hk, ?_⟩
      simp [Bus.reached, hkj]
  | _ => exact ⟨connections, hk, rfl⟩

/-- The connections that a publication has ahead it reaches in their order, or has ahead still. -/
theorem publication_runs {s s' : Traffic α} {acts : List (Act α)} (hruns : Runs s acts s')
    {k hub : Nat} {m : α} {connections : List (Nat × Nat)}
    (hk : s.publications[k]? = some ⟨hub, m, connections⟩) :
    ∃ ahead, s'.publications[k]? = some ⟨hub, m, ahead⟩ ∧
      copies m connections = Bus.reached acts k ++ copies m ahead := by
  induction hruns generalizing connections with
  | nil => exact ⟨connections, hk, rfl⟩
  | @cons s s₁ s' a more hstep _ ih =>
    obtain ⟨between, hbetween, hfirst⟩ := publication_step hstep hk
    obtain ⟨ahead, hahead, hrest⟩ := ih hbetween
    refine ⟨ahead, hahead, ?_⟩
    rw [hfirst, hrest, ← List.append_assoc, ← reached_append]
    rfl

/-! ## Delivery -/

/-- How a bus delivers, told by the acts on it. -/
structure Delivery (acts : List (Act α)) (s : Traffic α) : Prop where
  /-- What a sink has delivered, and after that what it has queued, is what it has accepted. -/
  fifo : ∀ place, Alive acts place →
    delivered acts place ++ (s.bus.sink place).queue = accepted acts place
  /-- A sink that has gone has delivered what it accepted first, and the rest is lost. -/
  gone : ∀ place, ¬ Alive acts place →
    delivered acts place <+: accepted acts place ∧ (s.bus.sink place).queue = []
  bounded : ∀ place, (s.bus.sink place).queue.length ≤ capacityAt acts place
  /-- A message is accepted if and only if the sink is alive at that moment and has room. -/
  offers : ∀ before source place m refusal after,
    acts = before ++ .offer source place m refusal :: after → refusal = verdict before place
  takes : ∀ before place message after,
    acts = before ++ .take place message :: after → message = (waiting before place).head?
  connections : ∀ hub, (s.bus.hub hub).connections = standing hub acts
  /-- No number is given twice by a hub. -/
  numbers : ∀ hub, (issued acts hub).Nodup ∧ ((standing hub acts).map (·.1)).Nodup
  /-- A publication offers a copy to each connection that stood when it began, in their order. -/
  publications : ∀ before hub m after, acts = before ++ .publish hub m :: after →
    ∃ ahead, s.publications[(published before).length]? = some ⟨hub, m, ahead⟩ ∧
      copies m (standing hub before) =
        Bus.reached acts (published before).length ++ copies m ahead
  /-- Nothing is offered by a publication that has not begun. -/
  unpublished : ∀ k, (published acts).length ≤ k → Bus.reached acts k = []

theorem kept_of_runs {acts : List (Act α)} {s : Traffic α} (h : Runs {} acts s) : Kept acts s :=
  kept_runs kept_nil h

theorem offer_step {acts : List (Act α)} {s s' : Traffic α} (h : Kept acts s)
    {source : Option (Nat × Nat)} {place : Nat} {m : α} {refusal : Option BusError}
    (hstep : Step s (.offer source place m refusal) s') : refusal = verdict acts place := by
  cases hstep with
  | offer => exact (h.sinks.sinks place).refusal_eq m
  | reach => exact (h.sinks.sinks place).refusal_eq m

theorem take_step {acts : List (Act α)} {s s' : Traffic α} (h : Kept acts s) {place : Nat}
    {message : Option α} (hstep : Step s (.take place message) s') :
    message = (waiting acts place).head? := by
  cases hstep with
  | take =>
    rw [(h.sinks.sinks place).waiting_eq, Sink.next?]
    split
    · rename_i hqueue
      rw [hqueue]
      rfl
    · rename_i hqueue
      rw [hqueue]
      rfl

theorem publish_step {acts more : List (Act α)} {s s₁ s' : Traffic α} (h : Kept acts s) {hub : Nat}
    {m : α} (hstep : Step s (.publish hub m) s₁) (hruns : Runs s₁ more s') :
    ∃ ahead, s'.publications[(published acts).length]? = some ⟨hub, m, ahead⟩ ∧
      copies m (standing hub acts) =
        Bus.reached (acts ++ .publish hub m :: more) (published acts).length ++ copies m ahead := by
  cases hstep with
  | publish =>
    have hbegun : (s.publications ++ [⟨hub, m, (s.bus.hub hub).connections⟩])[
        (published acts).length]? = some ⟨hub, m, (s.bus.hub hub).connections⟩ := by
      rw [h.publications]
      exact List.getElem?_concat_length
    obtain ⟨ahead, hahead, hcopies⟩ := publication_runs hruns hbegun
    refine ⟨ahead, hahead, ?_⟩
    have hnone := h.reached _ (Nat.le_of_eq h.publications.symm)
    rw [← (h.hubs hub).connections, hcopies, reached_append, hnone]
    rfl

/-- In the course of any acts on a bus it delivers as it should. -/
theorem delivery_of_runs {acts : List (Act α)} {s : Traffic α} (h : Runs {} acts s) :
    Delivery acts s := by
  have hkept := kept_of_runs h
  have hsinks := hkept.sinks.sinks
  refine ⟨fun place => (hsinks place).fifo,
    fun place hgone => ⟨(hsinks place).delivers, (hsinks place).gone hgone⟩,
    fun place => (hsinks place).capacity ▸ (hsinks place).bounded, ?_, ?_,
    fun hub => (hkept.hubs hub).connections, fun hub => ?_, ?_, fun k hk => ?_⟩
  · intro before source place m refusal after hacts
    subst hacts
    obtain ⟨s₁, s₂, hbefore, hstep, -⟩ := h.split
    exact offer_step (kept_of_runs hbefore) hstep
  · intro before place message after hacts
    subst hacts
    obtain ⟨s₁, s₂, hbefore, hstep, -⟩ := h.split
    exact take_step (kept_of_runs hbefore) hstep
  · have hissued : (issued acts hub).Nodup := by
      rw [(hkept.hubs hub).issued]
      exact List.nodup_range'
    exact ⟨hissued, hissued.sublist (sublist_issued hub acts)⟩
  · intro before hub m after hacts
    subst hacts
    obtain ⟨s₁, s₂, hbefore, hstep, hafter⟩ := h.split
    exact publish_step (kept_of_runs hbefore) hstep hafter
  · exact hkept.reached k (hkept.publications ▸ hk)

end Traffic

end Bus

end Mediatheque
