import Mediatheque.Proofs.Disk.Standing
import Mediatheque.Proofs.Dispatcher.Turn

/-!
# How far the dispatcher reaches

Of what is not its own the dispatcher reaches two things. It puts commands into the queues of the
backends, of which none tells a backend to quit. And it writes the settings file, and clears the
caches where it is asked for a rescan, so that the directory of a database stays where it is if
that does (`Reaches`). This holds of every command and every report (`reaches_handle`), and so of
a turn (`reaches_turn`).
-/

namespace Mediatheque

namespace Dispatcher

/-! ## Reaching -/

/-- What the dispatcher has done to the queues of backends and to the disk. -/
structure Reaches (clears : Prop) (d d' : Dispatcher) : Prop where
  /-- A backend has been handed some commands, of which none tells it to quit. -/
  routes : ∀ i : Nat, ∃ commands : List Command, (∀ c ∈ commands, c.isQuit = false) ∧
    d'.routes[i]? = d.routes[i]?.map fun r => commands.foldl Route.deliver r
  caches : d'.caches = d.caches
  /-- The directory of a database stays, unless it goes with the caches where they are cleared. -/
  disk : ∀ dir, (clears → ∀ e : Disk,
      e.Sustains dir (d.caches.foldl (fun disk cache => cache.purge disk) e)) →
    d.disk.Sustains dir d'.disk

variable {clears : Prop} {d d' d'' : Dispatcher}

theorem Reaches.of_eq (hroutes : d'.routes = d.routes) (hcaches : d'.caches = d.caches)
    (hdisk : d'.disk = d.disk) : Reaches clears d d' where
  routes i := ⟨[], List.forall_mem_nil _, by rw [hroutes]; exact Option.map_id'.symm⟩
  caches := hcaches
  disk dir _ := hdisk ▸ .refl dir d.disk

theorem Reaches.refl (d : Dispatcher) : Reaches clears d d := .of_eq rfl rfl rfl

theorem Reaches.trans (h : Reaches clears d d') (h' : Reaches clears d' d'') :
    Reaches clears d d'' where
  routes i := by
    obtain ⟨commands, hcommands, hroute⟩ := h.routes i
    obtain ⟨more, hmore, hroute'⟩ := h'.routes i
    refine ⟨commands ++ more, List.forall_mem_append.2 ⟨hcommands, hmore⟩, ?_⟩
    rw [hroute', hroute, Option.map_map]
    exact congrArg (Option.map · _) (funext fun r => List.foldl_append.symm)
  caches := h'.caches.trans h.caches
  disk dir hclears := (h.disk dir hclears).trans (h'.disk dir (h.caches ▸ hclears))

theorem Reaches.mono {more : Prop} (h : Reaches clears d d') (hmore : clears → more) :
    Reaches more d d' :=
  ⟨h.routes, h.caches, fun dir hclears => h.disk dir fun hc => hclears (hmore hc)⟩

/-- The effects that reach as far, or less. -/
def Effect.Within (clears : Prop) : Effect → Prop
  | .hand c => c.isQuit = false
  | .purge => clears
  | _ => True

theorem Edits.reaches (h : Edits (Effect.Within clears) d d') : Reaches clears d d' := by
  refine h.all .refl .trans @fun a b e he hedit => ?_
  cases hedit with
  | forward c i =>
    refine ⟨fun j => ?_, rfl, fun dir _ => .refl dir _⟩
    simp only [List.getElem?_modify]
    split
    · exact ⟨[c], List.forall_mem_singleton.2 he, rfl⟩
    · exact ⟨[], List.forall_mem_nil _, rfl⟩
  | broadcast c takesPart =>
    refine ⟨fun i => ?_, rfl, fun dir _ => .refl dir _⟩
    rw [broadcast, List.getElem?_map]
    cases a.routes[i]? with
    | none => exact ⟨[], List.forall_mem_nil _, rfl⟩
    | some r =>
      cases htakes : takesPart r.capabilities with
      | false => exact ⟨[], List.forall_mem_nil _, by simp [htakes]⟩
      | true => exact ⟨[c], List.forall_mem_singleton.2 he, by simp [htakes]⟩
  | purge =>
    exact ⟨(Reaches.refl a : Reaches clears a a).routes, rfl,
      fun _ hsustains => hsustains he a.disk⟩
  | _ => exact .of_eq rfl rfl rfl

/-! ## Turns -/

/-- An input may start a rescan. -/
def Input.AsksRescan : Input → Prop
  | .command _ c => c.AsksRescan
  | .report _ _ => False

theorem reaches_handle {i : Input} (h : d.handle i = .ok d') : Reaches i.AsksRescan d d' := by
  refine ((edits_handle h).mono fun e hmay => ?_).reaches
  cases i with
  | command now c =>
    cases hmay with
    | hand hc => exact hc
    | rescan hasks he =>
      cases he with
      | hand token => rfl
      | purge => exact hasks
      | _ => trivial
    | _ => trivial
  | report now m =>
    have hreport : m.event.May e := hmay
    generalize m.event = r at hreport
    cases hreport <;> trivial

theorem reaches_run {inputs : List Input} (h : d.run inputs = .ok d') :
    Reaches (∃ i ∈ inputs, i.AsksRescan) d d' := by
  induction inputs generalizing d with
  | nil =>
    cases h
    exact .refl _
  | cons i rest ih =>
    obtain ⟨e, he, hrest⟩ := Fault.bind_eq_ok_iff.1 h
    refine Reaches.trans ((reaches_handle he).mono fun hi => ?_) ((ih hrest).mono ?_)
    · exact ⟨i, List.mem_cons_self, hi⟩
    · exact fun ⟨j, hj, hasks⟩ => ⟨j, List.mem_cons_of_mem i hj, hasks⟩

end Dispatcher

/-- A write of the settings takes nothing away. -/
theorem Persister.retains_flush (p : Persister) (disk : Disk) :
    disk.Retains (p.flush disk).2.2 := by
  rw [flush]
  split
  · exact .refl disk
  · have hwrite := Disk.retains_write disk p.path p.registry.text
    rw [Registry.save]
    generalize disk.write p.path p.registry.text = written at hwrite ⊢
    obtain ⟨error | done, disk'⟩ := written
    · exact hwrite
    · exact hwrite

namespace Dispatcher

variable {clears : Prop} {d d' : Dispatcher}

theorem reaches_flush (d : Dispatcher) : Reaches clears d d.flush :=
  ⟨(Reaches.refl d : Reaches clears d d).routes, rfl,
    fun dir _ => (d.persister.retains_flush d.disk).sustains dir⟩

theorem reaches_tick (d : Dispatcher) (now : Nat) : Reaches clears d (d.tick now) := by
  rw [tick, Persister.poll_eq]
  by_cases hdue : d.persister.deadline.any (· ≤ now)
  · rw [if_pos hdue]
    exact reaches_flush d
  · rw [if_neg hdue]
    exact .refl d

/-- A turn reaches as far as its commands and reports do. -/
theorem reaches_turn (d : Dispatcher) (now : Nat) (commands : Sink Command)
    (reports : Sink BackendMessage) :
    Reaches (∃ c ∈ beforeQuit commands.queue, c.AsksRescan) d
      (d.turn now commands reports).dispatcher := by
  have hgiven (inputs : List Input) (hcommands : commandsOf inputs <+: beforeQuit commands.queue)
      {e : Dispatcher} (hrun : d.run inputs = .ok e) :
      Reaches (∃ c ∈ beforeQuit commands.queue, c.AsksRescan) d e := by
    refine (reaches_run hrun).mono ?_
    rintro ⟨i, hi, hasks⟩
    cases i with
    | command time c =>
      exact ⟨c, hcommands.subset (List.mem_filterMap.2 ⟨_, hi, rfl⟩), hasks⟩
    | report time m => cases hasks
  rcases turn_cases d now commands reports with ⟨d', hd', hturn⟩ | ⟨done, i, hdone, -, hcommands, -⟩
  · rw [hturn]
    rw [turnDuties, attendAll_append_eq_ok_iff] at hd'
    obtain ⟨e, he, htick⟩ := hd'
    rw [attendAll_map_input] at he
    cases htick
    have hall := (List.append_nil _).trans (commandsOf_given now (beforeQuit commands.queue)
      reports.queue)
    exact (hgiven _ ⟨[], hall⟩ he).trans (reaches_tick e now)
  · refine hgiven done ?_ hdone
    rw [commandsOf_append] at hcommands
    exact (List.prefix_append _ _).trans hcommands

end Dispatcher

end Mediatheque
