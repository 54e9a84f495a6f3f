import Mathlib.Data.List.Basic
import Mediatheque.Proofs.Dispatcher.Turn

/-!
# What happens to backends

The backends of a database are created, handle commands, end their work, are stopped and are
destroyed; and some fail on the way (`Happening`). `Due` says when each of these may happen, by
what has happened before, and a log is orderly if everything in it has happened when it was due
(`Orderly`). So a backend that has failed is neither stopped nor destroyed (`Orderly.spared`), and
nothing happens to any before all have been created (`Orderly.created`).
-/

namespace Mediatheque

open Dispatcher

namespace Database

/-- What happens to the backends of a database, each of which goes by its position. -/
inductive Happening where
  | created (i : Nat)
  /-- The queue of a backend has taken a command. -/
  | accepted (i : Nat) (c : Command)
  | handled (i : Nat) (c : Command)
  /-- The work of a backend is over, as it was told. -/
  | ended (i : Nat)
  | failed (i : Nat)
  | stopped (i : Nat)
  /-- The dispatcher has ended. -/
  | finished
  | destroyed (i : Nat)

/-! ## Logs -/

def Happening.accepted? (i : Nat) : Happening → Option Command
  | .accepted j c => if j = i then some c else none
  | _ => none

def Happening.handled? (i : Nat) : Happening → Option Command
  | .handled j c => if j = i then some c else none
  | _ => none

def Happening.stopped? : Happening → Option Nat
  | .stopped i => some i
  | _ => none

def Happening.destroyed? : Happening → Option Nat
  | .destroyed i => some i
  | _ => none

/-- The commands that the queue of a backend has taken. -/
def acceptedAt (i : Nat) (log : List Happening) : List Command := log.filterMap (·.accepted? i)

/-- The commands that a backend has handled. -/
def handledAt (i : Nat) (log : List Happening) : List Command := log.filterMap (·.handled? i)

/-- The backends that have been stopped. -/
def stops (log : List Happening) : List Nat := log.filterMap Happening.stopped?

/-- The backends that have been destroyed. -/
def destroys (log : List Happening) : List Nat := log.filterMap Happening.destroyed?

/-- Whether a backend has failed. -/
def failedAt (i : Nat) (log : List Happening) : Bool :=
  log.any fun
    | .failed j => j = i
    | _ => false

/-- The backends among the first that have not failed. -/
def survivors (count : Nat) (log : List Happening) : List Nat :=
  (List.range count).filter (!failedAt · log)

variable {i j count : Nat} {c : Command} {past log more : List Happening}

@[simp]
theorem acceptedAt_append : acceptedAt i (log ++ more) = acceptedAt i log ++ acceptedAt i more :=
  List.filterMap_append

@[simp]
theorem handledAt_append : handledAt i (log ++ more) = handledAt i log ++ handledAt i more :=
  List.filterMap_append

@[simp]
theorem stops_append : stops (log ++ more) = stops log ++ stops more := List.filterMap_append

@[simp]
theorem destroys_append : destroys (log ++ more) = destroys log ++ destroys more :=
  List.filterMap_append

theorem mem_stops : i ∈ stops log ↔ .stopped i ∈ log := by
  rw [stops, List.mem_filterMap]
  constructor
  · rintro ⟨h, hlog, heq⟩
    cases h with
    | stopped j =>
      cases heq
      exact hlog
    | _ => cases heq
  · exact fun h => ⟨_, h, rfl⟩

theorem mem_destroys : i ∈ destroys log ↔ .destroyed i ∈ log := by
  rw [destroys, List.mem_filterMap]
  constructor
  · rintro ⟨h, hlog, heq⟩
    cases h with
    | destroyed j =>
      cases heq
      exact hlog
    | _ => cases heq
  · exact fun h => ⟨_, h, rfl⟩

theorem failedAt_eq_true : failedAt i log = true ↔ .failed i ∈ log := by
  rw [failedAt, List.any_eq_true]
  constructor
  · rintro ⟨h, hlog, heq⟩
    cases h with
    | failed j =>
      obtain rfl : j = i := of_decide_eq_true heq
      exact hlog
    | _ => cases heq
  · exact fun h => ⟨_, h, decide_eq_true rfl⟩

theorem mem_survivors : i ∈ survivors count log ↔ i < count ∧ .failed i ∉ log := by
  rw [survivors, List.mem_filter, List.mem_range, Bool.not_eq_true', ← Bool.not_eq_true,
    failedAt_eq_true]

/-- Who survives depends on who of the first fails. -/
theorem survivors_congr (h : ∀ i < count, .failed i ∈ more ↔ .failed i ∈ log) :
    survivors count more = survivors count log := by
  refine List.filter_congr fun i hi => ?_
  rw [Bool.eq_iff_iff, Bool.not_eq_true', Bool.not_eq_true', ← Bool.not_eq_true,
    ← Bool.not_eq_true, failedAt_eq_true, failedAt_eq_true, h i (List.mem_range.1 hi)]

theorem survivors_append (h : ∀ i < count, .failed i ∉ more) :
    survivors count (log ++ more) = survivors count log :=
  survivors_congr fun i hi => by rw [List.mem_append, or_iff_left (h i hi)]

theorem survivors_succ_of_failed (h : .failed count ∈ log) :
    survivors (count + 1) log = survivors count log := by
  rw [survivors, List.range_succ, List.filter_append, List.filter_singleton,
    failedAt_eq_true.2 h]
  exact List.append_nil _

theorem survivors_succ_of_not_failed (h : .failed count ∉ log) :
    survivors (count + 1) log = survivors count log ++ [count] := by
  rw [← failedAt_eq_true, Bool.not_eq_true] at h
  rw [survivors, List.range_succ, List.filter_append, List.filter_singleton, h]
  rfl

/-! ## Order -/

/-- A backend of a number of backends may be at work: all have been created, and its work is not
over. -/
structure Active (count : Nat) (past : List Happening) (i : Nat) : Prop where
  created : ∀ j < count, .created j ∈ past
  lt : i < count
  ended : .ended i ∉ past
  failed : .failed i ∉ past

/-- A backend has been told to quit, and has handled all that its queue had taken before that. -/
def Done (past : List Happening) (i : Nat) : Prop :=
  .quit ∈ acceptedAt i past ∧ handledAt i past = beforeQuit (acceptedAt i past)

/-- Whether something may happen to a number of backends, by what has happened before. -/
def Due (count : Nat) (past : List Happening) : Happening → Prop
  | .created i => i < count ∧ past = (List.range i).map .created
  | .accepted i _ => Active count past i
  | .handled i c =>
    Active count past i ∧ handledAt i past ++ [c] <+: beforeQuit (acceptedAt i past)
  | .ended i => Active count past i ∧ Done past i
  | .failed i => Active count past i
  | .stopped i =>
    .ended i ∈ past ∧ Done past i ∧ .stopped i ∉ past ∧
      ∀ j < i, .stopped j ∈ past ∨ .failed j ∈ past
  | .finished => (∀ j < count, .created j ∈ past) ∧ .finished ∉ past
  | .destroyed i =>
    .stopped i ∈ past ∧ (∀ j < count, .stopped j ∈ past ∨ .failed j ∈ past) ∧ .finished ∈ past ∧
      .destroyed i ∉ past ∧ ∀ j < i, .destroyed j ∈ past ∨ .failed j ∈ past

/-- Everything has happened when it was due. -/
inductive Orderly (count : Nat) : List Happening → Prop where
  | nil : Orderly count []
  | snoc {past : List Happening} {h : Happening} (hpast : Orderly count past)
    (hdue : Due count past h) : Orderly count (past ++ [h])

theorem mem_snoc {h x : Happening} : h ∈ past ++ [x] ↔ h ∈ past ∨ h = x := by
  rw [List.mem_append, List.mem_singleton]

/-- Whatever has happened was due after something that came before it. -/
theorem Orderly.due (hlog : Orderly count log) {h : Happening} (hmem : h ∈ log) :
    ∃ past, Due count past h ∧ ∀ x ∈ past, x ∈ log := by
  induction hlog with
  | nil => cases hmem
  | @snoc past x _ hdue ih =>
    rcases mem_snoc.1 hmem with hpast | rfl
    · obtain ⟨before, hbefore, hsub⟩ := ih hpast
      exact ⟨before, hbefore, fun y hy => mem_snoc.2 (.inl (hsub y hy))⟩
    · exact ⟨past, hdue, fun y hy => mem_snoc.2 (.inl hy)⟩

/-- No backend both fails and ends its work. -/
theorem Orderly.not_failed (hlog : Orderly count log) (hended : .ended i ∈ log) :
    .failed i ∉ log := by
  induction hlog with
  | nil => cases hended
  | @snoc past x _ hdue ih =>
    intro hfailed
    rcases mem_snoc.1 hended with hbefore | rfl
    · rcases mem_snoc.1 hfailed with hpast | rfl
      · exact ih hbefore hpast
      · exact hdue.ended hbefore
    · rcases mem_snoc.1 hfailed with hpast | hsame
      · exact hdue.1.failed hpast
      · cases hsame

/-- A backend that has failed is neither stopped nor destroyed. -/
theorem Orderly.spared (hlog : Orderly count log) (hfailed : .failed i ∈ log) :
    .stopped i ∉ log ∧ .destroyed i ∉ log := by
  have hstopped : .stopped i ∉ log := by
    intro hmem
    obtain ⟨past, hdue, hsub⟩ := hlog.due hmem
    exact hlog.not_failed (hsub _ hdue.1) hfailed
  refine ⟨hstopped, fun hmem => ?_⟩
  obtain ⟨past, hdue, hsub⟩ := hlog.due hmem
  exact hstopped (hsub _ hdue.1)

/-- Once all have been created, they were so first of all, in their order, and once each. -/
theorem Orderly.created (hlog : Orderly count log) (hall : ∀ j < count, .created j ∈ log) :
    ∃ rest, log = (List.range count).map .created ++ rest ∧ ∀ i, .created i ∉ rest := by
  induction hlog with
  | nil =>
    obtain rfl : count = 0 := by
      by_contra hne
      cases hall 0 (Nat.pos_of_ne_zero hne)
    exact ⟨[], rfl, fun _ => List.not_mem_nil⟩
  | @snoc past x _ hdue ih =>
    by_cases hbefore : ∀ j < count, .created j ∈ past
    · obtain ⟨rest, rfl, hrest⟩ := ih hbefore
      refine ⟨rest ++ [x], List.append_assoc .., fun i hi => ?_⟩
      rcases mem_snoc.1 hi with hi | rfl
      · exact hrest i hi
      · -- There are too many happenings before it.
        have hlength := congrArg List.length hdue.2
        simp only [List.length_append, List.length_map, List.length_range] at hlength
        have hlt := hdue.1
        omega
    · push Not at hbefore
      obtain ⟨j, hj, hmissing⟩ := hbefore
      rcases mem_snoc.1 (hall j hj) with hpast | rfl
      · exact absurd hpast hmissing
      · have hlast : count = j + 1 := by
          by_contra hne
          rcases mem_snoc.1 (hall (j + 1) (by omega)) with hnext | hnext
          · rw [hdue.2] at hnext
            obtain ⟨i, hi, heq⟩ := List.mem_map.1 hnext
            have hlt := List.mem_range.1 hi
            have hsame := Happening.created.inj heq
            omega
          · exact absurd (Happening.created.inj hnext) (by omega)
        refine ⟨[], ?_, fun _ => List.not_mem_nil⟩
        rw [hdue.2, hlast, List.range_succ, List.map_append, List.append_nil]
        rfl

/-! ### More that happens -/

/-- Commands are handled in their order. -/
theorem orderly_handled (hlog : Orderly count log) (hwork : Active count log i)
    {handled : List Command}
    (hfirst : handledAt i log ++ handled <+: beforeQuit (acceptedAt i log)) :
    Orderly count (log ++ handled.map (.handled i)) := by
  induction handled generalizing log with
  | nil => rwa [List.map_nil, List.append_nil]
  | cons c rest ih =>
    have hc : handledAt i log ++ [c] <+: beforeQuit (acceptedAt i log) :=
      (List.prefix_append_right_inj _).2 (List.prefix_append [c] rest) |>.trans hfirst
    have hwork' : Active count (log ++ [.handled i c]) i := by
      obtain ⟨hcreated, hlt, hended, hfailed⟩ := hwork
      refine ⟨fun j hj => mem_snoc.2 (.inl (hcreated j hj)), hlt, ?_, ?_⟩
      · simpa using hended
      · simpa using hfailed
    rw [List.map_cons, List.append_cons]
    refine ih (hlog.snoc ⟨hwork, hc⟩) hwork' ?_
    simpa [acceptedAt, handledAt, Happening.accepted?, Happening.handled?] using hfirst

/-- Queues take commands for backends that are at work. -/
theorem orderly_accepted (hlog : Orderly count log)
    (hmore : ∀ h ∈ more, ∃ i c, h = .accepted i c ∧ Active count log i) :
    Orderly count (log ++ more) := by
  induction more generalizing log with
  | nil => rwa [List.append_nil]
  | cons h rest ih =>
    obtain ⟨⟨i, c, rfl, hwork⟩, hrest⟩ := List.forall_mem_cons.1 hmore
    rw [List.append_cons]
    refine ih (hlog.snoc hwork) fun x hx => ?_
    obtain ⟨j, d, rfl, hcreated, hlt, hended, hfailed⟩ := hrest x hx
    refine ⟨j, d, rfl, fun k hk => mem_snoc.2 (.inl (hcreated k hk)), hlt, ?_, ?_⟩
    · simpa using hended
    · simpa using hfailed

/-- All are created, one after the other. -/
theorem orderly_created (count : Nat) :
    Orderly count ((List.range count).map Happening.created) := by
  have key (n : Nat) (hn : n ≤ count) : Orderly count ((List.range n).map .created) := by
    induction n with
    | zero => exact .nil
    | succ n ih =>
      rw [List.range_succ, List.map_append, List.map_singleton]
      exact (ih (Nat.le_of_succ_le hn)).snoc ⟨hn, rfl⟩
  exact key count (Nat.le_refl count)

end Database

end Mediatheque
