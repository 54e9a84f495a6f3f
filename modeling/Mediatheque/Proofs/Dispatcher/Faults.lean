import Mathlib.Data.List.Induction
import Mediatheque.Proofs.Dispatcher.Run

/-!
# Faults of the dispatcher

What commands and reports name is looked up by positions in texts and lists. Where ids are
resolved and pages are cut out, all positions are in range, whatever is named (`InRange`,
`inRange_of_fits`). Where changed fields look for their node, the first position is not
checked. So a run of the dispatcher ends early if a report tells of changed fields whose id is
empty or starts with a character of several bytes, and only then (`run_ok_iff`).
-/

namespace Mediatheque

namespace Catalog

/-- What a catalog looks up is in range, except for the node of changed fields whose id cannot
be sliced. -/
structure InRange (c : Catalog) : Prop where
  resolves : ∀ id, c.root.resolveAt id = .ok (c.resolve id)
  follows : ∀ id, (∃ node?, c.root.nodeAt id = .ok node?) ↔ Sliceable id
  merges : ∀ id fields, (∃ r, c.merge id fields = .ok r) ↔ Sliceable id
  pages : ∀ id start count, ∃ page, c.browse id start count = .ok page
  windows : ∀ (start : Nat) count id node, c.resolve id = .served node →
    min start node.children.length + windowCount start count node.children.length ≤
      node.children.length

theorem min_add_windowCount_le (start total : Nat) (count : Option Nat) :
    min start total + windowCount start count total ≤ total := by
  by_cases h : start < total
  · rw [Nat.min_eq_left (Nat.le_of_lt h)]
    exact le_of_windowCount count h
  · have hnone : windowCount start count total = 0 := if_pos (Nat.le_of_not_lt h)
    rw [hnone]
    omega

theorem inRange_of_fits {c : Catalog} (h : c.Fits) : c.InRange where
  resolves id := Container.resolveAt_eq_resolve c.root id
  follows id := nodeAt_ok_iff c.root id
  merges id fields := merge_ok_iff c id fields
  pages id start count := browse_ok h id start count
  windows start count _ _ _ := min_add_windowCount_le start _ count

end Catalog

namespace Dispatcher

/-- An input tells of no changed fields whose id cannot be sliced. -/
def Input.Sliceable : Input → Prop
  | .command _ _ => True
  | .report _ m => SliceableFields m.event

theorem handle_ok_iff {d : Dispatcher} (hd : d.catalog.Fits) (i : Input) :
    (∃ d', d.handle i = .ok d') ↔ i.Sliceable := by
  cases i with
  | command now c =>
    obtain ⟨r, hr⟩ := handleCommand_ok hd now c
    refine iff_of_true ⟨r.2, ?_⟩ trivial
    rw [handle, hr]
    rfl
  | report now m => exact handleReport_ok_iff d now m

/-- A run meets no fault if the ids of all changed fields can be sliced, and only then, as long
as the numbers of children are those that a machine holds. All else that it looks up is in
range. -/
theorem run_ok_iff {d : Dispatcher} {inputs : List Input}
    (hfit : ∀ done e, done <+: inputs → d.run done = .ok e → e.catalog.Fits) :
    ((∃ d', d.run inputs = .ok d') ↔ ∀ i ∈ inputs, i.Sliceable) ∧
      ∀ done e, done <+: inputs → d.run done = .ok e → e.catalog.InRange := by
  refine ⟨?_, fun done e hdone he => Catalog.inRange_of_fits (hfit done e hdone he)⟩
  induction inputs using List.reverseRecOn with
  | nil => exact iff_of_true ⟨d, rfl⟩ (by simp)
  | append_singleton inputs i ih =>
    have hbefore := ih fun done e hdone he =>
      hfit done e (hdone.trans (List.prefix_append _ _)) he
    rw [List.forall_mem_append, List.forall_mem_singleton, ← hbefore]
    simp only [run_append_singleton_eq_ok_iff]
    constructor
    · rintro ⟨d', e, he, hi⟩
      have hfits := hfit inputs e (List.prefix_append _ _) he
      exact ⟨⟨e, he⟩, (handle_ok_iff hfits i).1 ⟨d', hi⟩⟩
    · rintro ⟨⟨e, he⟩, hi⟩
      have hfits := hfit inputs e (List.prefix_append _ _) he
      obtain ⟨d', hd'⟩ := (handle_ok_iff hfits i).2 hi
      exact ⟨d', e, he, hd'⟩

/-- A run stays within what a machine holds if its start does and the run from what the first
input leads to. -/
theorem fits_cons {d : Dispatcher} {i : Input} {inputs : List Input} (hd : d.catalog.Fits)
    (hrest : ∀ d', d.handle i = .ok d' →
      ∀ done e, done <+: inputs → d'.run done = .ok e → e.catalog.Fits) :
    ∀ done e, done <+: i :: inputs → d.run done = .ok e → e.catalog.Fits := by
  intro done e hdone he
  rcases List.prefix_cons_iff.1 hdone with rfl | ⟨rest, rfl, hprefix⟩
  · cases he
    exact hd
  · rw [run, List.foldlM_cons] at he
    obtain ⟨d', hi, he⟩ := Fault.bind_eq_ok_iff.1 he
    exact hrest d' hi rest e hprefix he

/-- Fields of an object that is not there, and a page from the last number on. -/
theorem run_ok_missing :
    ∃ d', (default : Dispatcher).run [
      .report 0 ⟨"files", .publish (.objectChanged "a//é" .empty)⟩,
      .command 0 (.browseChildren ⟨1⟩ "/" 18446744073709551615 (some 7) true)] = .ok d' := by
  have hempty : Catalog.empty.Fits := Catalog.fits_of_sizeOf (by decide)
  refine (run_ok_iff ?_).1.2 ?_
  · refine fits_cons hempty fun d₁ h₁ => ?_
    cases h₁
    refine fits_cons hempty fun d₂ h₂ done e hdone he => ?_
    cases h₂
    rw [List.prefix_nil.1 hdone] at he
    cases he
    exact hempty
  · intro i hi
    rcases List.mem_cons.1 hi with rfl | hi
    · exact ⟨'a', rfl, rfl⟩
    · rw [List.mem_singleton.1 hi]
      trivial

/-- A new dispatcher meets a fault at fields of an object without an id. -/
theorem not_run_ok :
    ¬ ∀ persister options disk inputs,
      (∀ done e, done <+: inputs →
        (new .empty persister options disk).run done = .ok e → e.catalog.Fits) →
      ∃ d', (new .empty persister options disk).run inputs = .ok d' := by
  intro h
  have hempty : Catalog.empty.Fits := Catalog.fits_of_sizeOf (by decide)
  have hrun := h default default default
    [.report 0 ⟨"files", .publish (.objectChanged "" .empty)⟩]
    (fits_cons hempty fun d' hd' => by cases hd')
  obtain ⟨d', hd'⟩ := hrun
  cases hd'

end Dispatcher

end Mediatheque
