import Mediatheque.Proofs.Dispatcher.Requests
import Mediatheque.Proofs.Dispatcher.Turn

/-!
# Waiting for a new database to be filled

From the moment at which the dispatcher begins to wait for the backends that fill a new database,
it waits for those that have not reported yet, and has told clients of the end once or not at all
(`Awaits`). Commands leave that alone, and so do reports other than the end of the creation at a
backend (`awaits_handle`), as long as no backend publishes the end by itself.
-/

namespace Mediatheque

/-- Whether an event tells that a new database is filled. -/
def Event.isCreationDone : Event → Bool
  | .creationDone => true
  | _ => false

/-- How often some events tell that a new database is filled. -/
def tellings (events : List Event) : Nat := events.countP Event.isCreationDone

theorem tellings_append (events more : List Event) :
    tellings (events ++ more) = tellings events + tellings more :=
  List.countP_append

theorem tellings_eq_zero {events : List Event} (h : ∀ e ∈ events, e.isCreationDone = false) :
    tellings events = 0 :=
  List.countP_eq_zero.2 fun e he => by rw [h e he]; exact Bool.false_ne_true

theorem eq_creationDone {e : Event} (h : e.isCreationDone = true) : e = .creationDone := by
  cases e <;> first | rfl | cases h

/-- A backend does not publish the end of the creation by itself. -/
def BackendMessage.Discreet (m : BackendMessage) : Prop := m.event ≠ .publish .creationDone

namespace Dispatcher

variable {d d' : Dispatcher} {creators : List String} {earlier : List Event}
  {reports : List BackendMessage}

/-! ## What is told -/

/-- What has nothing to do with the creation. -/
def Effect.SparesCreation : Effect → Prop
  | .tell e => e.isCreationDone = false
  | .creation => False
  | _ => True

theorem Edits.tellings_eq (h : Edits Effect.SparesCreation d d') :
    d'.creation = d.creation ∧ tellings d'.published = tellings d.published := by
  refine h.all (R := fun d d' => d'.creation = d.creation ∧
    tellings d'.published = tellings d.published) (fun _ => ⟨rfl, rfl⟩)
    (fun hab hbc => ⟨hbc.1.trans hab.1, hbc.2.trans hab.2⟩) fun he hedit => ?_
  cases hedit with
  | tell e =>
    refine ⟨rfl, ?_⟩
    rw [publish, tellings_append, tellings_eq_zero (List.forall_mem_singleton.2 he)]
    rfl
  | creation creation => cases he
  | _ => exact ⟨rfl, rfl⟩

/-- A command leaves the wait alone. -/
theorem creation_handleCommand {now : Nat} {c : Command} {r : Except DispatchError Unit}
    (h : d.handleCommand now c = .ok (r, d')) :
    d'.creation = d.creation ∧ tellings d'.published = tellings d.published := by
  refine ((edits_handleCommand h).mono fun e hmay => ?_).tellings_eq
  cases hmay with
  | missing | object | page | added | removed => rfl
  | rescan _ he =>
    cases he with
    | tell token => rfl
    | _ => trivial
  | hand | store | apply | enlist | strike => trivial

/-- A report other than of the end at its backend leaves the wait alone. -/
theorem creation_handleReport {now : Nat} {m : BackendMessage} (hm : m.Discreet)
    (h : d.handleReport now m = .ok d') :
    (m.event = .creationDone ∧ d' = d.completeCreation m.backend) ∨
      (m.event ≠ .creationDone ∧ d'.creation = d.creation ∧
        tellings d'.published = tellings d.published) := by
  by_cases he : m.event = .creationDone
  · obtain ⟨backend, event⟩ := m
    cases he
    cases h
    exact .inl ⟨rfl, rfl⟩
  · refine .inr ⟨he, ((edits_handleReport h).mono fun e hmay => ?_).tellings_eq⟩
    rw [BackendMessage.Discreet] at hm
    generalize m.event = r at hm he hmay
    cases hmay with
    | relay d e =>
      have hpresented : (d.presentEvent e).isCreationDone = e.isCreationDone := by cases e <;> rfl
      refine hpresented.trans (Bool.eq_false_iff.2 fun hdone => hm ?_)
      rw [eq_creationDone hdone]
    | creation | created => exact absurd rfl he
    | splice | rescanned | setting => rfl
    | merge | add | replace | delete | exported | unexported | rescan | store => trivial

/-! ## The wait -/

/-- The dispatcher waits for the backends that fill a database, some reports of which it has
handled, and has told clients of the end exactly if all have reported. -/
structure Awaits (creators : List String) (earlier : List Event) (reports : List BackendMessage)
    (d : Dispatcher) : Prop where
  nodup : d.creation.waiting.Nodup
  waiting : ∀ name, name ∈ d.creation.waiting ↔
    name ∈ creators ∧ ⟨name, .creationDone⟩ ∉ reports
  told : tellings (earlier ++ d.published) = if d.creation.waiting = [] then 1 else 0

namespace Awaits

/-- The wait is a matter of the barrier and of what has been told. -/
theorem of_eq (h : Awaits creators earlier reports d) (hcreation : d'.creation = d.creation)
    (hpublished : d'.published = d.published) : Awaits creators earlier reports d' := by
  constructor
  · rw [hcreation]
    exact h.nodup
  · rw [hcreation]
    exact h.waiting
  · rw [hcreation, hpublished]
    exact h.told

/-- Clients are told what has been published. -/
theorem flush (h : Awaits creators earlier reports d) :
    Awaits creators (earlier ++ d.published) reports { d with published := [] } where
  nodup := h.nodup
  waiting := h.waiting
  told := by
    rw [List.append_nil]
    exact h.told

theorem congr (h : Awaits creators earlier reports d) {more : List BackendMessage}
    (hcreation : d'.creation = d.creation)
    (hpublished : tellings d'.published = tellings d.published)
    (hmore : ∀ m ∈ more, m.event ≠ .creationDone) :
    Awaits creators earlier (reports ++ more) d' where
  nodup := by
    rw [hcreation]
    exact h.nodup
  waiting name := by
    have hnot : ⟨name, .creationDone⟩ ∉ more := fun hm => hmore _ hm rfl
    rw [hcreation, h.waiting, List.mem_append, or_iff_left hnot]
  told := by
    rw [tellings_append, hpublished, ← tellings_append, hcreation]
    exact h.told

/-- A backend reports the end, be it waited for or not. -/
theorem complete (h : Awaits creators earlier reports d) (backend : String) :
    Awaits creators earlier (reports ++ [⟨backend, .creationDone⟩])
      (d.completeCreation backend) := by
  have hgiven : tellings ((d.creation.finishes backend).map fun _ => .creationDone) =
      (d.creation.finishes backend).length := by
    rw [tellings, List.countP_map]
    exact List.countP_eq_length.2 fun _ _ => rfl
  constructor
  · rw [completeCreation_eq, Barrier.waiting_complete]
    exact h.nodup.erase backend
  · intro name
    rw [completeCreation_eq, Barrier.waiting_complete, h.nodup.mem_erase_iff, h.waiting,
      List.mem_append, not_or, List.mem_singleton]
    have hother : (⟨name, .creationDone⟩ : BackendMessage) = ⟨backend, .creationDone⟩ ↔
        name = backend := by simp
    rw [hother]
    exact ⟨fun ⟨hne, hc, hr⟩ => ⟨hc, hr, hne⟩, fun ⟨hc, hr, hne⟩ => ⟨hne, hc, hr⟩⟩
  · rw [completeCreation_eq, ← List.append_assoc, tellings_append, hgiven, h.told]
    exact d.creation.length_finishes backend

end Awaits

/-- Whatever is handled, the dispatcher waits on for those that have not reported. -/
theorem awaits_handle (h : Awaits creators earlier reports d) {i : Input}
    (hquiet : ∀ m, i.report? = some m → m.Discreet) (hi : d.handle i = .ok d') :
    Awaits creators earlier (reports ++ i.report?.toList) d' := by
  cases i with
  | command now c =>
    obtain ⟨⟨r, e⟩, hc, rfl⟩ := Fault.map_eq_ok_iff.1 hi
    obtain ⟨hcreation, hpublished⟩ := creation_handleCommand hc
    exact h.congr hcreation hpublished fun m hm => by cases hm
  | report now m =>
    rcases creation_handleReport (hquiet m rfl) hi with ⟨hm, rfl⟩ | ⟨hm, hcreation, hpublished⟩
    · obtain ⟨backend, event⟩ := m
      cases hm
      exact h.complete backend
    · exact h.congr hcreation hpublished (List.forall_mem_singleton.2 hm)

theorem awaits_run {inputs : List Input} (h : Awaits creators earlier reports d)
    (hquiet : ∀ m ∈ reportsOf inputs, m.Discreet) (hrun : d.run inputs = .ok d') :
    Awaits creators earlier (reports ++ reportsOf inputs) d' := by
  induction inputs generalizing d reports with
  | nil =>
    cases hrun
    rw [reportsOf, List.filterMap_nil, List.append_nil]
    exact h
  | cons i inputs ih =>
    obtain ⟨d₁, hi, hrun⟩ := Fault.bind_eq_ok_iff.1 hrun
    have hsplit : reportsOf (i :: inputs) = i.report?.toList ++ reportsOf inputs := by
      rw [reportsOf, List.filterMap_cons]
      cases i.report? <;> rfl
    rw [hsplit] at hquiet ⊢
    rw [← List.append_assoc]
    refine ih (awaits_handle h (fun m hm => ?_) hi) (fun m hm => ?_) hrun
    · exact hquiet m (List.mem_append_left _ (Option.mem_toList.2 hm))
    · exact hquiet m (List.mem_append_right _ hm)

/-- A turn handles all reports that are there, or ends early with the first of them. -/
theorem awaits_turn (h : Awaits creators earlier reports d) (now : Nat) (commands : Sink Command)
    {sink : Sink BackendMessage} (hquiet : ∀ m ∈ sink.queue, m.Discreet) :
    ∃ handled, handled <+: sink.queue ∧
      Awaits creators earlier (reports ++ handled) (d.turn now commands sink).dispatcher ∧
      ((d.turn now commands sink).outlook = .faulted ∨
        handled = sink.queue ∧ (d.turn now commands sink).reports.queue = []) := by
  rcases turn_cases d now commands sink with
    ⟨d', hattend, hturn⟩ | ⟨done, i, hrun, -, -, hprefix, hfaulted⟩
  · obtain ⟨d₁, hd₁, htick⟩ := attendAll_append_eq_ok_iff.1 hattend
    rw [attendAll_map_input] at hd₁
    refine ⟨sink.queue, List.prefix_rfl, ?_, ?_⟩
    · have hawaits := awaits_run h (by rwa [reportsOf_given]) hd₁
      rw [reportsOf_given] at hawaits
      rw [hturn]
      have hd' : d₁.tick now = d' := Except.ok.inj htick
      rw [← hd']
      exact hawaits.of_eq rfl rfl
    · rw [hturn]
      exact .inr ⟨rfl, rfl⟩
  · have hdone : reportsOf done <+: sink.queue := by
      rw [reportsOf_append] at hprefix
      exact (List.prefix_append _ _).trans hprefix
    refine ⟨reportsOf done, hdone, ?_, .inl hfaulted⟩
    exact awaits_run h (fun m hm => hquiet m (hdone.subset hm)) hrun

/-- The wait begins before any report is handled. Without backends to wait for clients are told
at once. -/
theorem awaits_beginCreation (hidle : d.creation = .idle) (hpublished : d.published = [])
    (creators : List String) : Awaits creators [] [] (d.beginCreation creators) := by
  have hnone : tellings d.published = 0 := by
    rw [hpublished]
    rfl
  rw [beginCreation]
  rcases d.creation.begin_cases () creators with
    ⟨tag, waiting, hpending, -⟩ | ⟨-, hcreators, hb⟩ | ⟨-, hcreators, hb⟩
  · rw [hidle] at hpending
    cases hpending
  · rw [hb]
    refine ⟨?_, fun name => ?_, ?_⟩
    · simp only [publish, hidle]
      exact List.nodup_nil
    · simp only [publish, hidle, hcreators]
      simp [Barrier.waiting]
    · simp only [publish, hidle, List.nil_append, tellings_append, hnone]
      rfl
  · rw [hb]
    refine ⟨nodup_eraseDups creators, fun other => ?_, ?_⟩
    · show other ∈ creators.eraseDups ↔ _
      rw [List.mem_eraseDups]
      simp
    · show tellings ([] ++ d.published) = if creators.eraseDups = [] then 1 else 0
      rw [List.nil_append, hnone, if_neg (mt eraseDups_eq_nil_iff.1 hcreators)]

end Dispatcher

end Mediatheque
