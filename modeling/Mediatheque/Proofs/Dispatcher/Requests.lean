import Mediatheque.Proofs.Barrier
import Mediatheque.Proofs.Dispatcher.Edits

/-!
# Requests for a rescan

A rescan is asked for by a command of its own or by the button among the settings
(`rescanRequest?`). The request is refused with the settings, or carried out
(`handleCommand_of_request`): one is under way, nobody takes part, or it starts
(`startRescan_cases`). The rescan under way ends at a backend with its report
(`completeRescan_eq`), and is left alone by all else (`rescan_handleCommand_of_pending`,
`rescan_handleReport`).
-/

namespace Mediatheque

namespace Dispatcher

/-! ## Requests -/

/-- The token of the rescan that a command asks for. -/
def rescanRequest? (d : Dispatcher) : Command → Option Token
  | .rescan token => some token
  | .setParameter context name _ =>
    if context = generalContext ∧ name = rescanParameter then some ⟨d.nextToken⟩ else none
  | _ => none

/-- The backends that take part in a rescan. -/
def scanners (d : Dispatcher) : List String :=
  (d.routes.filter (·.capabilities.rescan)).map (·.name)

/-- Asking for a rescan: one is under way, nobody takes part, or it starts. -/
theorem startRescan_cases (d : Dispatcher) (token : Token) :
    (∃ tag waiting, d.rescan = .pending tag waiting ∧
        d.startRescan token = (.error .rescanPending, d)) ∨
      (d.rescan = .idle ∧ d.scanners = [] ∧
        d.startRescan token = (.ok (), d.purge.publish (.rescanDone token))) ∨
      (d.rescan = .idle ∧ d.scanners ≠ [] ∧
        d.startRescan token = (.ok (),
          ({ d with rescan := .pending token d.scanners.eraseDups }.broadcast (·.rescan)
            (.rescan token)).purge)) := by
  rcases d.rescan.begin_cases token d.scanners with
    ⟨tag, waiting, hr, hb⟩ | ⟨hr, hnames, hb⟩ | ⟨hr, hnames, hb⟩
  · refine .inl ⟨tag, waiting, hr, ?_⟩
    rw [startRescan, ← scanners, hb]
  · refine .inr (.inl ⟨hr, hnames, ?_⟩)
    rw [startRescan, ← scanners, hb]
  · refine .inr (.inr ⟨hr, hnames, ?_⟩)
    rw [startRescan, ← scanners, hb]

/-- The button among the settings asks for a rescan, unless its value is refused. -/
theorem setOwnParameter_rescan (d : Dispatcher) (now : Nat) (value : ParameterValue) :
    (∃ e, d.setOwnParameter now rescanParameter value = (.error e, d)) ∨
      ∃ persister, d.setOwnParameter now rescanParameter value =
        { d with persister := persister, nextToken := d.nextToken + 1 }.startRescan
          ⟨d.nextToken⟩ := by
  rw [setOwnParameter]
  split
  · exact .inl ⟨_, rfl⟩
  · rename_i persister _
    rw [if_pos rfl]
    exact .inr ⟨persister, rfl⟩

/-- A request for a rescan is refused with the settings, or carried out. -/
theorem handleCommand_of_request {d d' : Dispatcher} {now : Nat} {c : Command} {token : Token}
    {r : Except DispatchError Unit} (hc : d.rescanRequest? c = some token)
    (h : d.handleCommand now c = .ok (r, d')) :
    (∃ e, r = .error e ∧ d' = d) ∨ ∃ persister nextToken,
      { d with persister := persister, nextToken := nextToken }.startRescan token = (r, d') := by
  cases c with
  | rescan t =>
    cases hc
    exact .inr ⟨d.persister, d.nextToken, Except.ok.inj h⟩
  | setParameter context name value =>
    rw [rescanRequest?] at hc
    split at hc
    · rename_i hn
      cases hc
      rw [hn.1, hn.2] at h
      have hs : d.setOwnParameter now rescanParameter value = (r, d') := Except.ok.inj h
      rcases setOwnParameter_rescan d now value with ⟨e, he⟩ | ⟨persister, he⟩
      · rw [he] at hs
        cases hs
        exact .inl ⟨e, rfl, rfl⟩
      · exact .inr ⟨persister, d.nextToken + 1, he ▸ hs⟩
    · cases hc
  | _ => cases hc

/-- A command that asks for no rescan has no effects of one. -/
theorem not_asksRescan {d : Dispatcher} {c : Command} (h : d.rescanRequest? c = none) :
    ¬ c.AsksRescan := by
  intro hasks
  cases c with
  | rescan token => cases h
  | setParameter context name value =>
    have hbutton : context = generalContext ∧ name = rescanParameter := hasks
    rw [rescanRequest?, if_pos hbutton] at h
    cases h
  | _ => exact hasks

/-! ## Ends of waiting -/

/-- The end of a rescan at one backend goes to the barrier, which may give back the token. -/
theorem completeRescan_eq (d : Dispatcher) (backend : String) :
    d.completeRescan backend =
      { d with
        rescan := (d.rescan.complete backend).1
        published := d.published ++ (d.rescan.finishes backend).map .rescanDone } := by
  rw [completeRescan, Barrier.finishes]
  obtain ⟨rescan, completion⟩ := d.rescan.complete backend
  cases completion with
  | done token => rfl
  | waiting count => rw [List.map_nil, List.append_nil]
  | ignored => rw [List.map_nil, List.append_nil]

/-- The end of the creation at one backend goes to the barrier, which may give back its tag. -/
theorem completeCreation_eq (d : Dispatcher) (backend : String) :
    d.completeCreation backend =
      { d with
        creation := (d.creation.complete backend).1
        published := d.published ++
          (d.creation.finishes backend).map fun _ => .creationDone } := by
  rw [completeCreation, Barrier.finishes]
  obtain ⟨creation, completion⟩ := d.creation.complete backend
  cases completion with
  | done tag => rfl
  | waiting count => rw [List.map_nil, List.append_nil]
  | ignored => rw [List.map_nil, List.append_nil]

/-! ## The rescan under way -/

theorem Edits.rescan_eq {may : Effect → Prop} {d d' : Dispatcher} (h : Edits may d d')
    (hrescan : ¬ may .rescan) : d'.rescan = d.rescan := by
  refine h.all (R := fun d d' => d'.rescan = d.rescan) (fun _ => rfl)
    (fun hab hbc => hbc.trans hab) fun he hedit => ?_
  cases hedit with
  | rescan rescan => exact absurd he hrescan
  | _ => rfl

/-- A rescan under way goes on through a command. -/
theorem rescan_handleCommand_of_pending {d d' : Dispatcher} {now : Nat} {c : Command}
    {r : Except DispatchError Unit} {tag : Token} {waiting : List String}
    (hd : d.rescan = .pending tag waiting) (h : d.handleCommand now c = .ok (r, d')) :
    d'.rescan = .pending tag waiting := by
  cases hc : d.rescanRequest? c with
  | none =>
    refine Eq.trans ((edits_handleCommand h).rescan_eq fun hmay => ?_) hd
    cases hmay with
    | rescan hasks => exact not_asksRescan hc hasks
  | some token =>
    rcases handleCommand_of_request hc h with ⟨e, -, rfl⟩ | ⟨persister, nextToken, hs⟩
    · exact hd
    · rcases startRescan_cases { d with persister := persister, nextToken := nextToken } token with
        ⟨_, _, -, hrefused⟩ | ⟨hidle, -⟩ | ⟨hidle, -⟩
      · rw [hrefused] at hs
        cases hs
        exact hd
      · cases hd.symm.trans hidle
      · cases hd.symm.trans hidle

/-- A rescan under way ends at a backend with its report, and is left alone by all else. -/
theorem rescan_handleReport {d d' : Dispatcher} {now : Nat} {m : BackendMessage}
    (h : d.handleReport now m = .ok d') :
    d'.rescan = d.rescan ∨
      (m.event = .rescanComplete ∧ d'.rescan = (d.rescan.complete m.backend).1) := by
  have hedits := edits_handleReport h
  obtain ⟨backend, event⟩ := m
  cases event with
  | rescanComplete =>
    cases h
    rw [completeRescan_eq]
    exact .inr ⟨rfl, rfl⟩
  | _ => exact .inl (hedits.rescan_eq nofun)

end Dispatcher

end Mediatheque
