import Mediatheque.Dispatcher.Command
import Mediatheque.Dispatcher.Report
import Mediatheque.Proofs.Catalog.Slices

/-!
# Runs of the dispatcher

The dispatcher handles commands of clients and reports of backends in any order (`Input`,
`run`). A command meets no fault as long as the numbers of children are those that a machine
holds (`handleCommand_ok`), and a report meets one only if it tells of changed fields whose id
cannot be sliced behind its first byte (`handleReport_ok_iff`).
-/

namespace Mediatheque

namespace Catalog

/-- The numbers of children are those that a machine holds. -/
structure Fits (c : Catalog) : Prop where
  children : c.children.length < UInt64.size
  served : ∀ id node, c.resolve id = .served node → node.children.length < UInt64.size

/-- A walk is served by where it starts or by something below it. -/
theorem sizeOf_le_of_walk {id : String} {node x : Container} {steps : List String}
    (h : node.walk id steps = .served x) : sizeOf x ≤ sizeOf node := by
  induction steps generalizing node with
  | nil =>
    rw [Container.walk] at h
    split at h
    · cases h
    · split at h
      · cases h
        exact Nat.le_refl _
      · cases h
  | cons step steps ih =>
    rw [Container.walk] at h
    split at h
    · cases h
    · split at h
      · cases h
        exact Nat.le_refl _
      · split at h
        · rename_i child hc
          have hlt := Container.sizeOf_lt_of_mem_children (List.mem_of_find?_eq_some hc)
          exact Nat.le_trans (ih h) (Nat.le_of_lt hlt)
        · cases h

theorem length_children_lt_sizeOf (c : Container) : c.children.length < sizeOf c := by
  have key (l : List Container) : l.length ≤ sizeOf l := by
    induction l with
    | nil => exact Nat.zero_le _
    | cons a l ih =>
      rw [List.length_cons, List.cons.sizeOf_spec]
      omega
  have h := key c.children
  cases c
  simp only [Container.mk.sizeOf_spec] at h ⊢
  omega

/-- A catalog that is small enough as a whole. -/
theorem fits_of_sizeOf {c : Catalog} (h : sizeOf c.root < UInt64.size) : c.Fits := by
  refine ⟨Nat.lt_trans (length_children_lt_sizeOf c.root) h, fun id node hr => ?_⟩
  rw [resolve, Container.resolve] at hr
  split at hr
  · have hle := sizeOf_le_of_walk hr
    have hlt := length_children_lt_sizeOf node
    omega
  · cases hr

/-- A catalog without containers. -/
theorem fits_of_isEmpty {c : Catalog} (h : c.children.isEmpty) : c.Fits := by
  have hnone : c.root.children = [] := List.isEmpty_iff.1 h
  have hsize : 0 < UInt64.size := by decide
  refine ⟨?_, fun id node hr => ?_⟩
  · rw [children, hnone]
    exact hsize
  · have hroot : node = c.root := by
      rw [resolve, Container.resolve] at hr
      split at hr
      · cases hsteps : ObjectId.prefixes (ObjectId.normalize id).toList with
        | nil =>
          rw [hsteps, Container.walk] at hr
          split at hr
          · cases hr
          · split at hr
            · exact (Resolution.served.inj hr).symm
            · cases hr
        | cons step rest =>
          rw [hsteps, Container.walk, Container.child?, hnone] at hr
          split at hr
          · cases hr
          · split at hr
            · exact (Resolution.served.inj hr).symm
            · cases hr
      · cases hr
    rw [hroot, hnone]
    exact hsize

theorem le_of_windowCount {start total : Nat} (count : Option Nat) (h : start < total) :
    start + windowCount start count total ≤ total := by
  rw [windowCount, if_neg (by omega)]
  cases count with
  | none =>
    show start + (total - start) ≤ total
    omega
  | some n =>
    show start + (if 1 ≤ n ∧ n ≤ total - start then n else total - start) ≤ total
    split <;> omega

/-- A page lies within the numbers of 64 bits. -/
theorem finalizePage_ok (start : UInt64) {total : Nat} (count : Option Nat)
    (h : total < UInt64.size) {l : List Container} (hl : l.length = total) (n : UInt64) :
    ∃ page, finalizePage start n
      ((l.drop start.toNat).take (windowCount start.toNat count total)) = .ok page := by
  rw [finalizePage, if_pos]
  · exact ⟨_, rfl⟩
  · have hs := start.toNat_lt
    have hd : (l.drop start.toNat).length = total - start.toNat := by
      rw [List.length_drop, hl]
    have hle := List.length_take_le' (windowCount start.toNat count total) (l.drop start.toNat)
    have hle' := List.length_take_le (windowCount start.toNat count total) (l.drop start.toNat)
    have hsize : UInt64.size = 2 ^ 64 := rfl
    by_cases hst : start.toNat < total
    · have := le_of_windowCount count hst
      omega
    · omega

/-- A page of what the catalog serves meets no fault. -/
theorem browse_ok {c : Catalog} (hc : c.Fits) (id : String) (start : UInt64)
    (count : Option UInt64) : ∃ page, c.browse id start count = .ok page := by
  rw [browse]
  cases hr : c.resolve id with
  | served node =>
    obtain ⟨page, hp⟩ := finalizePage_ok start (count.map (·.toNat))
      (hc.served id node hr) rfl (.ofNat node.children.length)
    simp only [hp]
    exact ⟨_, rfl⟩
  | delegated backend node exact => exact ⟨_, rfl⟩
  | missing => exact ⟨_, rfl⟩

end Catalog

namespace Dispatcher

/-! ## Runs -/

/-- What the dispatcher handles, each at a time in milliseconds. -/
inductive Input where
  | command (now : Nat) (c : Command)
  | report (now : Nat) (m : BackendMessage)

/-- Handles a command or a report. -/
def handle (d : Dispatcher) : Input → Except Fault Dispatcher
  | .command now c => Prod.snd <$> d.handleCommand now c
  | .report now m => d.handleReport now m

/-- Handles commands and reports one after the other. -/
def run (d : Dispatcher) (inputs : List Input) : Except Fault Dispatcher := inputs.foldlM handle d

theorem run_append (d : Dispatcher) (inputs rest : List Input) :
    d.run (inputs ++ rest) = d.run inputs >>= fun e => e.run rest :=
  List.foldlM_append

theorem run_singleton (d : Dispatcher) (i : Input) : d.run [i] = d.handle i := by
  rw [run, List.foldlM_cons]
  cases d.handle i <;> rfl

/-- The last input of a run is handled where those before it have led. -/
theorem run_append_singleton_eq_ok_iff {d d' : Dispatcher} {inputs : List Input} {i : Input} :
    d.run (inputs ++ [i]) = .ok d' ↔ ∃ e, d.run inputs = .ok e ∧ e.handle i = .ok d' := by
  simp only [run_append, Fault.bind_eq_ok_iff, run_singleton]

/-! ## Faults -/

theorem handleCommand_ok {d : Dispatcher} (hd : d.catalog.Fits) (now : Nat) (c : Command) :
    ∃ r, d.handleCommand now c = .ok r := by
  cases c with
  | browseObject token id =>
    rw [handleCommand]
    split <;> exact ⟨_, rfl⟩
  | browseChildren token id start count oneAnswer =>
    rw [handleCommand]
    split
    · obtain ⟨page, hp⟩ := Catalog.browse_ok hd id start count
      rw [serveChildren, hp]
      cases page <;> exact ⟨_, rfl⟩
    · exact ⟨_, rfl⟩
    · exact ⟨_, rfl⟩
  | _ => exact ⟨_, rfl⟩

/-- Changed fields that a report tells of are of an object whose id can be sliced. -/
def SliceableFields : BackendEvent → Prop
  | .publish (.objectChanged id _) => Catalog.Sliceable id
  | _ => True

/-- A report meets a fault if it tells of changed fields whose id cannot be sliced. -/
theorem handleReport_ok_iff (d : Dispatcher) (now : Nat) (m : BackendMessage) :
    (∃ d', d.handleReport now m = .ok d') ↔ SliceableFields m.event := by
  rw [handleReport]
  cases m.event with
  | publish e =>
    cases e with
    | objectChanged id fields =>
      show (∃ d', d.relay (.objectChanged id fields) = .ok d') ↔ Catalog.Sliceable id
      rw [← d.catalog.merge_ok_iff id fields, relay]
      refine Fault.bind_ok_iff fun ⟨catalog, merge⟩ => ?_
      cases merge <;> exact ⟨_, rfl⟩
    | _ => exact iff_of_true ⟨_, rfl⟩ trivial
  | _ => exact iff_of_true ⟨_, rfl⟩ trivial

/-- A report of changed fields is of an object whose id starts with a slash. -/
def RootedFields : BackendEvent → Prop
  | .publish (.objectChanged id _) => id.toList.head? = some '/'
  | _ => True

theorem handleReport_ok (d : Dispatcher) (now : Nat) {m : BackendMessage}
    (h : RootedFields m.event) : ∃ d', d.handleReport now m = .ok d' := by
  refine (handleReport_ok_iff d now m).2 ?_
  unfold SliceableFields
  split
  · rename_i he
    rw [he] at h
    exact Catalog.sliceable_of_slash h
  · trivial

end Dispatcher

end Mediatheque
