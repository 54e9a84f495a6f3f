import Mediatheque.Proofs.Dispatcher.Exchange

/-!
# The rescan protocol

The report of a complete rescan carries no token. That it ends the right rescan rests on what
is on its way between the dispatcher and a backend that takes part: of the commands that wait
for the backend, the rescans that it has taken, and the reports that answer them, there is at
most one, and it is of the rescan for which the barrier waits for that backend
(`InFlight.flight`). Two more invariants follow the tokens from their requests to the events
that tell them done (`Ledger`), and what the backends have done for them (`History`).

Each is kept by every step, so that they hold of whatever an exchange comes to
(`consistent_of_reachable`), which gives the guarantees of the protocol
(`rescan_protocol`).
-/

namespace Mediatheque

/-- Whether a report tells of the end of a rescan at a backend. -/
def Posted.tells (name : String) (t : Token) (p : Posted) : Bool :=
  p.message.backend = name ∧ p.answers = some t

namespace Exchange

theorem count_map_pair (name other : String) (l : List Token) (t : Token) :
    (l.map (name, ·)).count (other, t) = if name = other then l.count t else 0 := by
  induction l with
  | nil => simp
  | cons u l ih =>
    rw [List.map_cons, List.count_cons, List.count_cons, ih]
    by_cases hn : name = other <;> simp [hn]

/-! ## What is on its way -/

/-- What is on its way between the dispatcher and the backends that take part in rescans is
due. -/
structure InFlight (v : View) (owed : List (String × Token)) (reports : List Posted) : Prop where
  names : (v.profiles.map (·.name)).Nodup
  waiting : v.rescan.waiting.Sublist v.scanners
  flight : ∀ p ∈ v.profiles, p.capabilities.rescan = true → ∀ t,
    p.rescans.count t + owed.count (p.name, t) + reports.countP (Posted.tells p.name t) ≤
      (v.rescan.due p.name).count t
  answered : ∀ p ∈ reports, p.message.event = .rescanComplete →
    p.message.backend ∈ v.scanners → p.answers ≠ none
  quiet : ∀ p ∈ reports, ∀ e, p.message.event = .publish e → e.rescanDone? = none

theorem nodup_scanners {v : View} (h : (v.profiles.map (·.name)).Nodup) : v.scanners.Nodup :=
  h.sublist ((List.filter_sublist ..).map _)

namespace InFlight

variable {v : View} {owed : List (String × Token)} {reports : List Posted}

theorem nodup_waiting (h : InFlight v owed reports) : v.rescan.waiting.Nodup :=
  (nodup_scanners h.names).sublist h.waiting

/-- A rescan begins while none is under way. -/
theorem begins (h : InFlight v owed reports) {t : Token} {w : View} (hw : v.Begins t w) :
    InFlight w owed reports := by
  have hscan := hw.scanners_eq
  cases hw with
  | nobody hidle hnone => exact ⟨h.names, h.waiting, h.flight, h.answered, h.quiet⟩
  | somebody hidle hkeys hgot =>
    rename_i profiles
    have hnames : profiles.map (·.name) = v.profiles.map (·.name) := by
      have := congrArg (List.map Prod.fst) hkeys
      rwa [List.map_map, List.map_map] at this
    have hdup : v.scanners.eraseDups = v.scanners := eraseDups_of_nodup (nodup_scanners h.names)
    refine ⟨hnames ▸ h.names, ?_, ?_, fun p hp hc hb => h.answered p hp hc (hscan ▸ hb), h.quiet⟩
    · rw [hscan, hdup]
      exact .refl _
    · intro p hp hcap u
      obtain ⟨q, hq, hname, hcaps, hresc⟩ := hgot p hp
      have hbefore := h.flight q hq (hcaps ▸ hcap) u
      have hmem : p.name ∈ v.scanners := View.mem_scanners_iff.2 ⟨q, hq, hcaps ▸ hcap, hname.symm⟩
      have hdue : (v.rescan.due q.name).count u = 0 := by
        rw [hidle]
        rfl
      have hdue' : Barrier.due (.pending t v.scanners.eraseDups) p.name = [t] := by
        rw [hdup]
        exact if_pos hmem
      rw [hdue', hname]
      rcases hresc with hresc | hresc
      · rw [hresc]
        omega
      · rw [hresc, List.count_append]
        omega

/-- A backend takes the next command from its sink. -/
theorem take (h : InFlight v owed reports) {i : Nat} {p : Profile} {new rest : List Token}
    (hp : v.profiles[i]? = some p) (hr : p.rescans = new ++ rest) :
    InFlight { v with profiles := v.profiles.set i { p with rescans := rest } }
      (owed ++ new.map (p.name, ·)) reports := by
  have hscan : View.scanners { v with profiles := v.profiles.set i { p with rescans := rest } } =
      v.scanners := View.scanners_congr (map_set_of_eq hp rfl)
  have hnames : (v.profiles.set i { p with rescans := rest }).map (·.name) =
      v.profiles.map (·.name) := map_set_of_eq hp rfl
  refine ⟨hnames ▸ h.names, hscan ▸ h.waiting, fun q hq hcap u => ?_,
    fun p hp hc hb => h.answered p hp hc (hscan ▸ hb), h.quiet⟩
  rw [List.count_append, count_map_pair]
  obtain ⟨j, hj⟩ := List.mem_iff_getElem?.1 hq
  rw [List.getElem?_set] at hj
  split at hj
  · -- What the backend takes is no longer in its sink.
    split at hj
    · cases hj
      have hbefore := h.flight p (List.mem_of_getElem? hp) hcap u
      rw [hr, List.count_append] at hbefore
      rw [if_pos rfl]
      show rest.count u + (owed.count (p.name, u) + new.count u) +
        reports.countP (Posted.tells p.name u) ≤ (v.rescan.due p.name).count u
      omega
    · cases hj
  · rename_i hij
    have hne : p.name ≠ q.name := by
      intro hname
      have hip : (v.profiles.map (·.name))[i]? = some p.name := by
        rw [List.getElem?_map, hp, Option.map_some]
      have hjq : (v.profiles.map (·.name))[j]? = some q.name := by
        rw [List.getElem?_map, hj, Option.map_some]
      have hlt := (List.getElem?_eq_some_iff.1 hip).1
      exact hij ((List.getElem?_inj hlt h.names).1 (by rw [hip, hjq, hname]))
    rw [if_neg hne]
    exact h.flight q (List.mem_of_getElem? hj) hcap u

/-- A backend reports a rescan complete that it has taken. -/
theorem complete {s : Sink Posted} (h : InFlight v owed s.queue) {name : String} {t : Token}
    (howed : (name, t) ∈ owed) :
    InFlight v (owed.erase (name, t)) (s.put ⟨⟨name, .rescanComplete⟩, some t⟩).queue := by
  refine ⟨h.names, h.waiting, fun p hp hcap u => ?_, fun p hp hc hb => ?_, fun p hp e he => ?_⟩
  · have hbefore := h.flight p hp hcap u
    have hput := s.countP_queue_put_le ⟨⟨name, .rescanComplete⟩, some t⟩ (Posted.tells p.name u)
    have hpos := List.count_pos_iff.2 howed
    rw [List.count_erase]
    by_cases heq : (name, t) = (p.name, u)
    · -- What the backend owed no more is on its way to the dispatcher, or lost.
      have htells : Posted.tells p.name u ⟨⟨name, .rescanComplete⟩, some t⟩ = true := by
        cases heq
        simp [Posted.tells]
      rw [htells] at hput
      rw [← heq] at hbefore ⊢
      simp only [beq_self_eq_true, if_true] at hput ⊢
      omega
    · have htells : Posted.tells p.name u ⟨⟨name, .rescanComplete⟩, some t⟩ = false := by
        simpa [Posted.tells] using heq
      rw [htells] at hput
      simp only [beq_iff_eq, heq, if_false, Bool.false_eq_true] at hput ⊢
      omega
  · rcases Sink.mem_queue_put hp with hp | rfl
    · exact h.answered p hp hc hb
    · simp
  · rcases Sink.mem_queue_put hp with hp | rfl
    · exact h.quiet p hp e he
    · cases he

/-- Something else is reported. -/
theorem report {s : Sink Posted} (h : InFlight v owed s.queue) {m : BackendMessage}
    (hquiet : ∀ e, m.event = .publish e → e.rescanDone? = none)
    (hcomplete : m.event = .rescanComplete → m.backend ∉ v.scanners) :
    InFlight v owed (s.put ⟨m, none⟩).queue := by
  refine ⟨h.names, h.waiting, fun p hp hcap u => ?_, fun p hp hc hb => ?_, fun p hp e he => ?_⟩
  · have hbefore := h.flight p hp hcap u
    have hput := s.countP_queue_put_le ⟨m, none⟩ (Posted.tells p.name u)
    have htells : Posted.tells p.name u ⟨m, none⟩ = false := by simp [Posted.tells]
    rw [htells] at hput
    simp only [if_false, Bool.false_eq_true] at hput
    omega
  · rcases Sink.mem_queue_put hp with hp | rfl
    · exact h.answered p hp hc hb
    · exact absurd hb (hcomplete hc)
  · rcases Sink.mem_queue_put hp with hp | rfl
    · exact h.quiet p hp e he
    · exact hquiet e he

/-- A report that is of no matter to rescans is handled. -/
theorem tail {p : Posted} (h : InFlight v owed (p :: reports)) : InFlight v owed reports := by
  refine ⟨h.names, h.waiting, fun q hq hcap u => ?_, fun q hq => h.answered q (.tail p hq),
    fun q hq => h.quiet q (.tail p hq)⟩
  have hbefore := h.flight q hq hcap u
  rw [List.countP_cons] at hbefore
  omega

/-- The rescan that a report answers, if it is of a backend that takes part, is the one that
is due from there. -/
theorem due_of_answers {p : Posted} (h : InFlight v owed (p :: reports)) {t : Token}
    (hp : p.message.backend ∈ v.scanners) (ht : p.answers = some t) :
    v.rescan.due p.message.backend = [t] := by
  obtain ⟨q, hq, hcap, hname⟩ := View.mem_scanners_iff.1 hp
  have hbefore := h.flight q hq hcap t
  have htells : Posted.tells q.name t p = true := by simp [Posted.tells, hname, ht]
  rw [List.countP_cons, htells, if_pos rfl, hname] at hbefore
  exact Barrier.due_of_mem (List.count_pos_iff.1 (by omega))

/-- The report of the end of a rescan is handled. -/
theorem completes {p : Posted} (h : InFlight v owed (p :: reports))
    (hp : p.message.event = .rescanComplete) :
    InFlight (v.completes p.message.backend) owed reports := by
  refine ⟨h.names, ?_, fun q hq hcap u => ?_, fun q hq => h.answered q (.tail p hq),
    fun q hq => h.quiet q (.tail p hq)⟩
  · show (v.rescan.complete p.message.backend).1.waiting.Sublist v.scanners
    rw [Barrier.waiting_complete]
    exact (List.erase_sublist ..).trans h.waiting
  · have hbefore := h.flight q hq hcap u
    have hdue := Barrier.due_complete h.nodup_waiting p.message.backend q.name
    show _ ≤ ((v.rescan.complete p.message.backend).1.due q.name).count u
    rw [hdue]
    rw [List.countP_cons] at hbefore
    by_cases hname : q.name = p.message.backend
    · -- The report is all there was on its way.
      have hmem : p.message.backend ∈ v.scanners :=
        View.mem_scanners_iff.2 ⟨q, hq, hcap, hname⟩
      obtain ⟨t, ht⟩ := Option.ne_none_iff_exists'.1 (h.answered p List.mem_cons_self hp hmem)
      have htells : Posted.tells p.message.backend u p = (t == u) := by
        simp [Posted.tells, ht, beq_eq_decide]
      rw [hname, h.due_of_answers hmem ht, List.count_singleton, htells] at hbefore
      rw [if_pos hname, hname, List.count_nil]
      omega
    · rw [if_neg hname]
      omega

end InFlight

/-! ## Tokens -/

/-- The rescans that the dispatcher has accepted are the ones that it has told clients to be
done, and the one under way. No token is used twice. -/
structure Ledger (v : View) (queued accepted issued : List Token) : Prop where
  accepted_eq : accepted = v.done ++ v.rescan.tag?.toList
  nodup : (accepted ++ queued).Nodup
  issued : ∀ t ∈ accepted ++ queued, t ∈ issued

namespace Ledger

variable {v : View} {queued accepted issued : List Token}

/-- A client sends a command. -/
theorem send {s : Sink Command} (h : Ledger v (s.queue.filterMap Command.rescan?) accepted issued)
    {c : Command} (hfresh : ∀ t, c.rescan? = some t → t ∉ issued) :
    Ledger v ((s.put c).queue.filterMap Command.rescan?) accepted
      (c.rescan?.toList ++ issued) := by
  have hlost : Ledger v (s.queue.filterMap Command.rescan?) accepted (c.rescan?.toList ++ issued) :=
    ⟨h.accepted_eq, h.nodup, fun t ht => List.mem_append_right _ (h.issued t ht)⟩
  rcases s.queue_put c with hq | hq
  · rw [hq]
    exact hlost
  · cases hc : c.rescan? with
    | none =>
      rw [hc] at hlost
      rw [hq, List.filterMap_append, List.filterMap_cons_none hc, List.filterMap_nil,
        List.append_nil]
      exact hlost
    | some t =>
      have hnew := fun ht => hfresh t hc (h.issued t ht)
      rw [hq, List.filterMap_append, List.filterMap_cons_some hc, List.filterMap_nil,
        Option.toList_some]
      refine ⟨h.accepted_eq, ?_, fun u hu => ?_⟩
      · rw [← List.append_assoc, List.nodup_append_comm]
        exact List.nodup_cons.2 ⟨hnew, h.nodup⟩
      · rw [← List.append_assoc, List.mem_append] at hu
        rcases hu with hu | hu
        · exact List.mem_append_right _ (h.issued u hu)
        · exact List.mem_append_left _ hu

/-- A command is handled that begins no rescan. -/
theorem tail {new more : List Token} (h : Ledger v (new ++ queued) accepted issued) :
    Ledger v queued accepted (more ++ issued) := by
  have hsub : (accepted ++ queued).Sublist (accepted ++ (new ++ queued)) :=
    (List.sublist_append_right new queued).append_left accepted
  exact ⟨h.accepted_eq, h.nodup.sublist hsub,
    fun t ht => List.mem_append_right _ (h.issued t (hsub.subset ht))⟩

/-- A command begins a rescan, with the token that it carries or a new one. -/
theorem begins {new : List Token} (h : Ledger v (new ++ queued) accepted issued) {t : Token}
    {w : View} (hw : v.Begins t w) (hnew : new = [t] ∨ new = [] ∧ t ∉ issued) :
    Ledger w queued (accepted ++ [t]) ([t] ++ issued) := by
  have hsame : (accepted ++ [t] ++ queued).Nodup ∧
      ∀ u ∈ accepted ++ [t] ++ queued, u ∈ [t] ++ issued := by
    rcases hnew with rfl | ⟨rfl, hnew⟩
    · rw [List.append_assoc]
      exact ⟨h.nodup, fun u hu => List.mem_append_right _ (h.issued u hu)⟩
    · have hp : (accepted ++ [t] ++ queued).Perm (t :: (accepted ++ queued)) := by
        rw [List.append_assoc]
        exact List.perm_middle
      refine ⟨hp.nodup_iff.2 (List.nodup_cons.2 ⟨fun ht => hnew (h.issued t ht), h.nodup⟩),
        fun u hu => ?_⟩
      rcases List.mem_cons.1 (hp.mem_iff.1 hu) with rfl | hu
      · exact List.mem_append_left _ (List.mem_singleton.2 rfl)
      · exact List.mem_append_right _ (h.issued u hu)
  refine ⟨?_, hsame.1, hsame.2⟩
  have hacc := h.accepted_eq
  cases hw with
  | nobody hidle _ =>
    rw [hidle] at hacc
    rw [hacc]
    show _ = v.done ++ [t] ++ v.rescan.tag?.toList
    rw [hidle]
    simp [Barrier.tag?]
  | somebody hidle _ _ =>
    rw [hidle] at hacc
    rw [hacc]
    simp [Barrier.tag?]

/-- The report of the end of a rescan is handled. -/
theorem completes (h : Ledger v queued accepted issued) (backend : String) :
    Ledger (v.completes backend) queued accepted issued := by
  refine ⟨?_, h.nodup, h.issued⟩
  rw [h.accepted_eq, v.rescan.tag?_complete backend, ← List.append_assoc]
  rfl

end Ledger

/-! ## What backends have done -/

/-- What is on its way from backends they have taken before. Of the rescans that have been
accepted, those that are not due from a backend have been taken by it, and their ends there
have been handled. -/
structure History (v : View) (owed : List (String × Token)) (reports : List Posted)
    (accepted : List Token) (taken completed : List (String × Token)) : Prop where
  owed : ∀ o ∈ owed, o ∈ taken
  posted : ∀ p ∈ reports, ∀ t, p.answers = some t → (p.message.backend, t) ∈ taken
  reported : ∀ name ∈ v.scanners, ∀ t ∈ accepted, t ∉ v.rescan.due name →
    (name, t) ∈ taken ∧ (name, t) ∈ completed

namespace History

variable {v : View} {owed : List (String × Token)} {reports : List Posted}
  {accepted : List Token} {taken completed : List (String × Token)}

/-- A new rescan is due from all that take part. -/
theorem begins (h : History v owed reports accepted taken completed) {t : Token} {w : View}
    (hw : v.Begins t w) : History w owed reports (accepted ++ [t]) taken completed := by
  refine ⟨h.owed, h.posted, fun name hname u hu hdue => ?_⟩
  rw [hw.scanners_eq] at hname
  cases hw with
  | nobody hidle hnone =>
    rw [hnone] at hname
    cases hname
  | somebody hidle hkeys hgot =>
    have hmem : name ∈ v.scanners.eraseDups := List.mem_eraseDups.2 hname
    have hne : u ≠ t := by
      rintro rfl
      exact hdue (Barrier.mem_due_iff.2 ⟨hmem, rfl⟩)
    have hu : u ∈ accepted := by simpa [hne] using hu
    refine h.reported name hname u hu fun hold => ?_
    rw [hidle] at hold
    cases hold

/-- A backend takes the next command from its sink. -/
theorem take (h : History v owed reports accepted taken completed) {profiles : List Profile}
    (hkeys : profiles.map (fun p => (p.name, p.capabilities)) =
      v.profiles.map fun p => (p.name, p.capabilities)) (new : List (String × Token)) :
    History { v with profiles := profiles } (owed ++ new) reports accepted (taken ++ new)
      completed := by
  have hscan : View.scanners { v with profiles := profiles } = v.scanners :=
    View.scanners_congr hkeys
  refine ⟨fun o ho => ?_, fun p hp t ht => List.mem_append_left _ (h.posted p hp t ht),
    fun name hname t ht hdue => ?_⟩
  · rcases List.mem_append.1 ho with ho | ho
    · exact List.mem_append_left _ (h.owed o ho)
    · exact List.mem_append_right _ ho
  · rw [hscan] at hname
    obtain ⟨htaken, hcompleted⟩ := h.reported name hname t ht hdue
    exact ⟨List.mem_append_left _ htaken, hcompleted⟩

/-- A backend reports a rescan complete that it has taken. -/
theorem complete {s : Sink Posted} (h : History v owed s.queue accepted taken completed)
    {name : String} {t : Token} (howed : (name, t) ∈ owed) :
    History v (owed.erase (name, t)) (s.put ⟨⟨name, .rescanComplete⟩, some t⟩).queue accepted
      taken completed := by
  refine ⟨fun o ho => h.owed o (List.mem_of_mem_erase ho), fun p hp u hu => ?_, h.reported⟩
  rcases Sink.mem_queue_put hp with hp | rfl
  · exact h.posted p hp u hu
  · cases hu
    exact h.owed _ howed

/-- Something else is reported. -/
theorem report {s : Sink Posted} (h : History v owed s.queue accepted taken completed)
    (m : BackendMessage) : History v owed (s.put ⟨m, none⟩).queue accepted taken completed := by
  refine ⟨h.owed, fun p hp u hu => ?_, h.reported⟩
  rcases Sink.mem_queue_put hp with hp | rfl
  · exact h.posted p hp u hu
  · cases hu

/-- A report that is of no matter to rescans is handled. -/
theorem tail {p : Posted} (h : History v owed (p :: reports) accepted taken completed)
    (more : List (String × Token)) :
    History v owed reports accepted taken (completed ++ more) := by
  refine ⟨h.owed, fun q hq => h.posted q (.tail p hq), fun name hname t ht hdue => ?_⟩
  obtain ⟨htaken, hcompleted⟩ := h.reported name hname t ht hdue
  exact ⟨htaken, List.mem_append_left _ hcompleted⟩

/-- The report of the end of a rescan is handled. -/
theorem completes {p : Posted} (h : History v owed (p :: reports) accepted taken completed)
    (hf : InFlight v owed (p :: reports)) (hp : p.message.event = .rescanComplete) :
    History (v.completes p.message.backend) owed reports accepted taken
      (completed ++ p.answers.toList.map (p.message.backend, ·)) := by
  refine ⟨h.owed, fun q hq => h.posted q (.tail p hq), fun name hname t ht hdue => ?_⟩
  have hname : name ∈ v.scanners := hname
  by_cases hold : t ∈ v.rescan.due name
  · -- The rescan is no longer due from the backend, so it is the one that this report answers.
    have hback : name = p.message.backend := by
      by_contra hne
      refine hdue ?_
      show t ∈ (v.rescan.complete p.message.backend).1.due name
      rw [Barrier.due_complete hf.nodup_waiting, if_neg hne]
      exact hold
    subst hback
    obtain ⟨u, hu⟩ := Option.ne_none_iff_exists'.1 (hf.answered p List.mem_cons_self hp hname)
    rw [hf.due_of_answers hname hu, List.mem_singleton] at hold
    subst hold
    refine ⟨h.posted p List.mem_cons_self t hu, List.mem_append_right _ ?_⟩
    rw [hu]
    exact List.mem_singleton.2 rfl
  · obtain ⟨htaken, hcompleted⟩ := h.reported name hname t ht hold
    exact ⟨htaken, List.mem_append_left _ hcompleted⟩

end History

/-! ## Exchanges -/

/-- The invariant of an exchange. -/
structure Consistent (s : Exchange) : Prop where
  flight : InFlight s.dispatcher.view s.owed s.reports.queue
  ledger : Ledger s.dispatcher.view s.queued s.accepted s.issued
  history : History s.dispatcher.view s.owed s.reports.queue s.accepted s.taken s.completed

/-- The invariant goes by what rescans go by at the dispatcher. -/
theorem Consistent.of_view {s : Exchange} {v : View} (hv : s.dispatcher.view = v)
    (hflight : InFlight v s.owed s.reports.queue) (hledger : Ledger v s.queued s.accepted s.issued)
    (hhistory : History v s.owed s.reports.queue s.accepted s.taken s.completed) :
    Consistent s := by
  subst hv
  exact ⟨hflight, hledger, hhistory⟩

theorem consistent_of_start {s : Exchange} (h : Start s) : Consistent s := by
  have hrescan : s.dispatcher.view.rescan = .idle := h.idle
  have hdone : s.dispatcher.view.done = [] := h.done
  refine ⟨⟨?_, ?_, fun p hp _ t => ?_, ?_, ?_⟩, ⟨?_, ?_, ?_⟩, ⟨?_, ?_, ?_⟩⟩
  · rw [Dispatcher.view, List.map_map]
    exact h.names
  · rw [hrescan]
    exact List.nil_sublist _
  · obtain ⟨r, hr, rfl⟩ := List.mem_map.1 hp
    have hnone : r.profile.rescans = [] := h.routes r hr
    rw [hnone, h.owed, h.reports]
    exact Nat.zero_le _
  · simp [h.reports]
  · simp [h.reports]
  · rw [h.accepted, hdone, hrescan]
    rfl
  · rw [h.accepted, h.commands]
    exact List.nodup_nil
  · simp [h.accepted, h.commands]
  · simp [h.owed]
  · simp [h.reports]
  · simp [h.accepted]

/-- A command leaves the queue of the dispatcher, with the rescan that it asks for. -/
theorem queued_of_next? {s : Exchange} {c : Command} {rest : Sink Command}
    (h : s.commands.next? = (some c, rest)) :
    s.queued = c.rescan?.toList ++ rest.queue.filterMap Command.rescan? := by
  rw [queued, Sink.queue_next? h, List.filterMap_cons]
  cases c.rescan? <;> rfl

/-- What a backend takes from its sink is gone from there. -/
theorem view_take (d : Dispatcher) (i : Nat) (r : Route) :
    ({ d with routes := d.routes.set i r }).view =
      { d.view with profiles := d.view.profiles.set i r.profile } := by
  rw [Dispatcher.view, Dispatcher.view, List.map_set]

/-- The token with which a command begins a rescan is the one that the command carries, or a
new one. -/
theorem rescan?_of_request {s : Exchange} {c : Command} {t : Token}
    (hfresh : ∀ u, c.rescan? = none → s.dispatcher.rescanRequest? c = some u → u ∉ s.issued)
    (h : s.dispatcher.rescanRequest? c = some t) :
    c.rescan?.toList = [t] ∨ c.rescan?.toList = [] ∧ t ∉ s.issued := by
  cases c with
  | rescan u =>
    cases h
    exact .inl rfl
  | setParameter context name value => exact .inr ⟨rfl, hfresh t rfl h⟩
  | _ => cases h

theorem consistent_command {s : Exchange} (h : Consistent s) {now : Nat} {c : Command}
    {rest : Sink Command} {r : Except DispatchError Unit} {d : Dispatcher}
    (hnext : s.commands.next? = (some c, rest))
    (hfresh : ∀ t, c.rescan? = none → s.dispatcher.rescanRequest? c = some t → t ∉ s.issued)
    (hh : s.dispatcher.handleCommand now c = .ok (r, d)) :
    Consistent { s with
      dispatcher := d
      commands := rest
      issued := (s.dispatcher.rescanRequest? c).toList ++ s.issued
      accepted := s.accepted ++ Dispatcher.acceptedBy (s.dispatcher.rescanRequest? c) r } := by
  have hledger := h.ledger
  rw [queued_of_next? hnext] at hledger
  rcases Dispatcher.view_handleCommand hh with ⟨hview, hacc⟩ | ⟨t, hc, hacc, hbegins⟩
  · rw [hacc, List.append_nil]
    exact .of_view hview h.flight hledger.tail h.history
  · rw [hacc, hc]
    exact ⟨h.flight.begins hbegins, hledger.begins hbegins (rescan?_of_request hfresh hc),
      h.history.begins hbegins⟩

theorem consistent_take {s : Exchange} (h : Consistent s) {i : Nat} {route : Route}
    {c : Command} {rest : Sink Command} (hroute : s.dispatcher.routes[i]? = some route)
    (hnext : route.commands.next? = (some c, rest)) :
    Consistent { s with
      dispatcher := { s.dispatcher with
        routes := s.dispatcher.routes.set i { route with commands := rest } }
      owed := s.owed ++ c.rescan?.toList.map (route.name, ·)
      taken := s.taken ++ c.rescan?.toList.map (route.name, ·) } := by
  have hprofile : s.dispatcher.view.profiles[i]? = some route.profile := by
    rw [Dispatcher.view, List.getElem?_map, hroute, Option.map_some]
  have hrescans : route.profile.rescans =
      c.rescan?.toList ++ Route.rescans { route with commands := rest } := by
    show route.rescans = _
    rw [Route.rescans, Route.rescans, Sink.queue_next? hnext, List.filterMap_cons]
    cases c.rescan? <;> rfl
  have hview := view_take s.dispatcher i { route with commands := rest }
  have hkeys : (s.dispatcher.view.profiles.set i
      (Route.profile { route with commands := rest })).map (fun p => (p.name, p.capabilities)) =
        s.dispatcher.view.profiles.map fun p => (p.name, p.capabilities) :=
    map_set_of_eq hprofile rfl
  exact .of_view hview (h.flight.take hprofile hrescans)
    ⟨h.ledger.accepted_eq, h.ledger.nodup, h.ledger.issued⟩ (h.history.take hkeys _)

theorem consistent_handle {s : Exchange} (h : Consistent s) {now : Nat} {p : Posted}
    {rest : Sink Posted} {d : Dispatcher} (hnext : s.reports.next? = (some p, rest))
    (hh : s.dispatcher.handleReport now p.message = .ok d) :
    Consistent { s with
      dispatcher := d
      reports := rest
      completed := s.completed ++ p.answers.toList.map (p.message.backend, ·) } := by
  have hflight := h.flight
  have hhistory := h.history
  rw [Sink.queue_next? hnext] at hflight hhistory
  rcases Dispatcher.view_handleReport (hflight.quiet p List.mem_cons_self) hh with
    ⟨hp, hview⟩ | ⟨-, hview⟩
  · exact .of_view hview (hflight.completes hp) (h.ledger.completes p.message.backend)
      (hhistory.completes hflight hp)
  · exact .of_view hview hflight.tail h.ledger (hhistory.tail _)

/-- Each step keeps the invariant. -/
theorem consistent_step {s s' : Exchange} (h : Consistent s) (hs : Step s s') :
    Consistent s' := by
  cases hs with
  | send hfresh => exact ⟨h.flight, h.ledger.send hfresh, h.history⟩
  | command now hnext hfresh hh => exact consistent_command h hnext hfresh hh
  | take hroute hnext => exact consistent_take h hroute hnext
  | complete howed =>
    exact ⟨h.flight.complete howed, h.ledger, h.history.complete howed⟩
  | report hquiet hcomplete =>
    rw [← Dispatcher.scanners_view] at hcomplete
    exact ⟨h.flight.report hquiet hcomplete, h.ledger, h.history.report _⟩
  | handle now hnext hh => exact consistent_handle h hnext hh

/-- The invariant holds of whatever an exchange comes to. -/
theorem consistent_of_reachable {s : Exchange} (h : Reachable s) : Consistent s := by
  induction h with
  | start h => exact consistent_of_start h
  | step _ hs ih => exact consistent_step ih hs

/-! ## Guarantees -/

namespace Consistent

variable {s : Exchange}

theorem accepted_eq (h : Consistent s) :
    s.accepted = s.done ++ s.dispatcher.rescan.tag?.toList :=
  h.ledger.accepted_eq

theorem nodup_accepted (h : Consistent s) :
    (s.done ++ s.dispatcher.rescan.tag?.toList).Nodup := by
  rw [← h.accepted_eq]
  exact (List.nodup_append.1 h.ledger.nodup).1

/-- The rescan under way has not been told done. -/
theorem not_mem_done (h : Consistent s) {t : Token} (ht : t ∈ s.dispatcher.rescan.tag?.toList) :
    t ∉ s.done := fun hd =>
  (List.nodup_append.1 h.nodup_accepted).2.2 t hd t ht rfl

/-- A rescan that is done is due from nobody. -/
theorem not_mem_due (h : Consistent s) {t : Token} (ht : t ∈ s.done) (name : String) :
    t ∉ s.dispatcher.rescan.due name := by
  intro hdue
  refine h.not_mem_done ?_ ht
  rw [(Barrier.mem_due_iff.1 hdue).2]
  exact List.mem_singleton.2 rfl

theorem underway_eq (h : Consistent s) :
    s.underway = s.dispatcher.rescan.tag?.toList := by
  have hdone : s.done.filter (· ∉ s.done) = [] :=
    List.filter_eq_nil_iff.2 fun t ht => by simpa using ht
  have htag : s.dispatcher.rescan.tag?.toList.filter (· ∉ s.done) =
      s.dispatcher.rescan.tag?.toList :=
    List.filter_eq_self.2 fun t ht => by simpa using h.not_mem_done ht
  rw [underway, h.accepted_eq, List.filter_append, hdone, htag, List.nil_append]

end Consistent

/-- A request for a rescan while one is under way is refused, and nothing else happens. -/
theorem handleCommand_rescan_of_tag {d : Dispatcher} {t : Token} (h : d.rescan.tag? = some t)
    (now : Nat) (u : Token) :
    d.handleCommand now (.rescan u) = .ok (.error .rescanPending, d) := by
  have hs : d.handleCommand now (.rescan u) = .ok (d.startRescan u) := rfl
  rw [hs]
  rcases d.startRescan_cases u with ⟨_, _, -, hs⟩ | ⟨hidle, -⟩ | ⟨hidle, -⟩
  · rw [hs]
  · rw [hidle] at h
    cases h
  · rw [hidle] at h
    cases h

/-- The guarantees of the rescan protocol. A rescan is told done once at most, and only if it
has been accepted. It is told done only after each backend that takes part has taken it and
its end there has been handled. Of the rescans that have been accepted, at most one has not
been told done; while there is one, a request for another is refused, and the dispatcher stays
as it is. -/
theorem rescan_protocol {s : Exchange} (h : Reachable s) :
    s.done.Nodup ∧ (∀ t ∈ s.done, t ∈ s.accepted) ∧
      (∀ t ∈ s.done, ∀ r ∈ s.dispatcher.routes, r.capabilities.rescan = true →
        (r.name, t) ∈ s.taken ∧ (r.name, t) ∈ s.completed) ∧
      s.underway.length ≤ 1 ∧
      (s.underway ≠ [] → ∀ now u,
        s.dispatcher.handleCommand now (.rescan u) =
          .ok (.error .rescanPending, s.dispatcher)) := by
  have hc := consistent_of_reachable h
  have haccepted : ∀ t ∈ s.done, t ∈ s.accepted := fun t ht => by
    rw [hc.accepted_eq]
    exact List.mem_append_left _ ht
  refine ⟨(List.nodup_append.1 hc.nodup_accepted).1, haccepted, fun t ht r hr hcap => ?_, ?_,
    fun hne now u => ?_⟩
  · refine hc.history.reported r.name ?_ t (haccepted t ht) (hc.not_mem_due ht r.name)
    exact View.mem_scanners_iff.2 ⟨r.profile, List.mem_map_of_mem hr, hcap, rfl⟩
  · rw [hc.underway_eq]
    cases s.dispatcher.rescan.tag? <;> simp
  · rw [hc.underway_eq] at hne
    cases htag : s.dispatcher.rescan.tag? with
    | none => simp [htag] at hne
    | some t => exact handleCommand_rescan_of_tag htag now u

/-- A rescan that the only backend has taken and reported, and another one behind it. -/
theorem rescan_protocol_second :
    ∃ s : Exchange, Reachable s ∧ s.done = [⟨1⟩] ∧ s.underway = [⟨2⟩] ∧
      ("files", ⟨1⟩) ∈ s.taken ∧ ("files", ⟨1⟩) ∈ s.completed ∧
      s.dispatcher.handleCommand 0 (.rescan ⟨3⟩) = .ok (.error .rescanPending, s.dispatcher) := by
  have start : Start {
      dispatcher := { (default : Dispatcher) with
        routes := [⟨"files", { rescan := true }, .new⟩] }
      commands := .new
      reports := .new } :=
    ⟨by simp, rfl, rfl, rfl, by simp [Route.rescans, Sink.new], rfl, rfl, rfl⟩
  have h := Reachable.start start
  have h := h.step (.send _ (c := .rescan ⟨1⟩) (by simp))
  have h := h.step (.command _ 0 rfl (by rintro t ⟨⟩) rfl)
  have h := h.step (.take _ (i := 0) rfl rfl)
  have h := h.step (.complete _ (by decide : ("files", (⟨1⟩ : Token)) ∈ [("files", ⟨1⟩)]))
  have h := h.step (.handle _ 0 rfl rfl)
  have h := h.step (.send _ (c := .rescan ⟨2⟩) (by decide))
  have h := h.step (.command _ 0 rfl (by rintro t ⟨⟩) rfl)
  obtain ⟨-, -, hreported, -, hrefused⟩ := rescan_protocol h
  obtain ⟨htaken, hcompleted⟩ := hreported ⟨1⟩ (by decide) _ List.mem_cons_self rfl
  exact ⟨_, h, rfl, rfl, htaken, hcompleted, hrefused (by decide) 0 ⟨3⟩⟩

end Exchange

end Mediatheque
