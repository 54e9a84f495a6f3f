import Mediatheque.Catalog.Basic

/-!
# Pages of children

The children of a node that the catalog serves are shown to clients with their positions and their
number (`Container.shown`), and a page of them is a part of that list (`browse_eq`). Which part it
is goes by the start and the count that a client asks for (`Window`).

* `browseAt_eq_browse`: a page is also what comes of 64-bit sums and differences, a slice and the
  numbering of what it holds, none of which meets a fault;
* `pagesAlong_eq`: pages that begin where the ones before them end make up the list;
* `browse_pages`: both, for every start and every count.
-/

namespace Mediatheque

namespace Container

theorem idx_finalize (c : Container) (idx total : UInt64) :
    (c.finalize (some idx) total).idx = some idx := rfl

theorem total_finalize_ofNat (c : Container) (idx : Option UInt64) {total : Nat} (h : 0 < total)
    (hfit : total < UInt64.size) :
    (c.finalize idx (.ofNat total)).total.map (·.toNat) = some total := by
  have htotal : (UInt64.ofNat total).toNat = total := UInt64.toNat_ofNat_of_lt' hfit
  have hne : UInt64.ofNat total ≠ 0 := by
    intro hzero
    rw [hzero] at htotal
    exact absurd htotal (Nat.ne_of_lt h)
  have hsome : (c.finalize idx (.ofNat total)).total = some (.ofNat total) := if_neg hne
  rw [hsome, Option.map_some, htotal]

/-- The children of a node as clients see them, each with its position and the number of all. -/
def shown (node : Container) : List Container :=
  node.children.mapIdx fun i child =>
    child.finalize (some (.ofNat i)) (.ofNat node.children.length)

theorem length_shown (node : Container) : node.shown.length = node.children.length :=
  List.length_mapIdx

theorem getElem?_shown {node child : Container} {i : Nat} (h : node.children[i]? = some child) :
    node.shown[i]? = some (child.finalize (some (.ofNat i)) (.ofNat node.children.length)) := by
  rw [shown, List.getElem?_mapIdx, h, Option.map_some]

end Container

namespace Catalog

/-! ## Which children a page holds -/

/-- How many of `total` children a client gets that asks for those from a start on. -/
inductive Window (start : Nat) (count : Option Nat) (total : Nat) : Nat → Prop where
  /-- The start is behind the last. -/
  | behind (h : total ≤ start) : Window start count total 0
  /-- There are as many as it asks for. -/
  | counted {n : Nat} (hcount : count = some n) (hn : 1 ≤ n) (hle : start + n ≤ total) :
    Window start count total n
  /-- It asks for none in particular, for zero, or for more than there are. -/
  | remaining (h : start < total) (hcount : ∀ n, count = some n → n = 0 ∨ total < start + n) :
    Window start count total (total - start)

theorem window_windowCount (start : Nat) (count : Option Nat) (total : Nat) :
    Window start count total (windowCount start count total) := by
  rw [windowCount]
  by_cases h : total ≤ start
  · rw [if_pos h]
    exact .behind h
  · rw [if_neg h]
    cases count with
    | none => exact .remaining (Nat.lt_of_not_le h) nofun
    | some n =>
      dsimp only
      split
      · rename_i hn
        exact .counted rfl hn.1 (by omega)
      · rename_i hn
        refine .remaining (Nat.lt_of_not_le h) fun m hm => ?_
        obtain rfl := Option.some.inj hm
        omega

/-- A window that begins with a child ends with one. -/
theorem Window.add_le {start total k : Nat} {count : Option Nat} (h : Window start count total k) :
    min start total + k ≤ total := by
  cases h with
  | behind h => omega
  | counted _ _ hle => omega
  | remaining h _ => omega

/-- What is left of a list behind a position, as many as there are. -/
theorem Window.take_drop {α : Type} {start k : Nat} {count : Option Nat} {l : List α}
    (h : Window start count l.length k) :
    (l.drop start).take k = (l.drop (min start l.length)).take k := by
  cases h with
  | behind h => rfl
  | counted _ _ hle => rw [Nat.min_eq_left (by omega)]
  | remaining h _ => rw [Nat.min_eq_left (by omega)]

/-- A client that asks for no particular number from the first child on gets all. -/
theorem Window.eq_of_all {total k : Nat} (h : Window 0 none total k) : k = total := by
  cases h with
  | behind h => exact (Nat.le_zero.1 h).symm
  | counted hcount => cases hcount
  | remaining => exact Nat.sub_zero total

/-! ## A page -/

/-- The items of a page are those children of a node that stand from a start on, and tell their
positions and the number of all children. -/
structure IsPage (node : Container) (start k : Nat) (page : List Container) : Prop where
  length : page.length = k
  items : ∀ i < k, ∃ child, node.children[start + i]? = some child ∧
    page[i]? = some (child.finalize (some (.ofNat (start + i))) (.ofNat node.children.length))
  positions : page.map (fun item => item.idx.map (·.toNat)) = (List.range' start k).map some
  totals : ∀ item ∈ page, item.total.map (·.toNat) = some node.children.length

variable {node : Container}

theorem getElem?_take_drop_shown {start k : Nat} (h : k = 0 ∨ start + k ≤ node.children.length) :
    ∀ i < k, ∃ child, node.children[start + i]? = some child ∧
      ((node.shown.drop start).take k)[i]? =
        some (child.finalize (some (.ofNat (start + i))) (.ofNat node.children.length)) := by
  intro i hi
  have hlt : start + i < node.children.length := by omega
  have hchild := List.getElem?_eq_getElem hlt
  refine ⟨_, hchild, ?_⟩
  rw [List.getElem?_take_of_lt hi, List.getElem?_drop, Container.getElem?_shown hchild]

section

variable (hfit : node.children.length < UInt64.size)
include hfit

theorem isPage_shown {start k : Nat} (h : k = 0 ∨ start + k ≤ node.children.length) :
    IsPage node start k ((node.shown.drop start).take k) := by
  have hlength : ((node.shown.drop start).take k).length = k := by
    rw [List.length_take, List.length_drop, Container.length_shown]
    omega
  have hitems := getElem?_take_drop_shown h
  refine ⟨hlength, hitems, List.ext_getElem? fun i => ?_, fun item hitem => ?_⟩
  · by_cases hi : i < k
    · obtain ⟨child, hchild, hitem⟩ := hitems i hi
      have hposition : (UInt64.ofNat (start + i)).toNat = start + i :=
        UInt64.toNat_ofNat_of_lt' (by omega)
      rw [List.getElem?_map, hitem, List.getElem?_map, List.getElem?_range' hi, Option.map_some,
        Option.map_some, Container.idx_finalize, Option.map_some, hposition, Nat.one_mul]
    · rw [List.getElem?_eq_none (by simp only [List.length_map, hlength]; omega),
        List.getElem?_eq_none (by simp only [List.length_map, List.length_range']; omega)]
  · obtain ⟨i, hi, rfl⟩ := List.mem_iff_getElem.1 hitem
    obtain ⟨child, hchild, hget⟩ := hitems i (hlength ▸ hi)
    have hsome := Nat.zero_lt_of_lt (List.getElem?_eq_some_iff.1 hchild).1
    have htotal := Container.total_finalize_ofNat child (some (.ofNat (start + i))) hsome hfit
    rw [List.getElem?_eq_getElem hi] at hget
    rw [Option.some.inj hget, htotal]

/-- No position on a page is beyond 64 bits. -/
theorem start_add_length_le (start : UInt64) (count : Option UInt64) :
    start.toNat + ((node.children.drop start.toNat).take
      (windowCount start.toNat (count.map (·.toNat)) node.children.length)).length ≤
      UInt64.size := by
  have hbound := (window_windowCount start.toNat (count.map (·.toNat)) node.children.length).add_le
  have hstart := start.toNat_lt
  have hsize : UInt64.size = 2 ^ 64 := rfl
  rw [List.length_take, List.length_drop]
  omega

/-! ## What a client gets -/

variable {c : Catalog} {id : String} (hnode : c.resolve id = .served node)
include hnode

/-- A page is a part of the list of all children. -/
theorem browse_eq (start : UInt64) (count : Option UInt64) :
    c.browse id start count =
      .ok (some ((node.shown.drop start.toNat).take
          (windowCount start.toNat (count.map (·.toNat)) node.children.length),
        .ofNat node.children.length)) := by
  have hlength := start_add_length_le hfit start count
  generalize hk : windowCount start.toNat (count.map (·.toNat)) node.children.length = k
  rw [hk] at hlength
  have hpage : ((node.children.drop start.toNat).take k).mapIdx (fun i child =>
      child.finalize (some (.ofNat (start.toNat + i))) (.ofNat node.children.length)) =
      (node.shown.drop start.toNat).take k := by
    refine List.ext_getElem? fun i => ?_
    rw [List.getElem?_mapIdx, List.getElem?_take, List.getElem?_take]
    split
    · rw [List.getElem?_drop, List.getElem?_drop, Container.shown, List.getElem?_mapIdx]
    · rfl
  simp only [browse, hnode, hk, finalizePage, if_pos hlength, hpage, bind, Except.bind]

end

/-! ## In 64 bits -/

/-- A sum that 64 bits have to hold. -/
def boundedSum (a b : Nat) : Except Fault Nat :=
  if a + b < UInt64.size then .ok (a + b) else .error .overflow

/-- A difference that must not be less than zero. -/
def boundedDifference (a b : Nat) : Except Fault Nat :=
  if b ≤ a then .ok (a - b) else .error .overflow

/-- The part of a list from a position up to another. -/
def slice {α : Type} (l : List α) (first last : Nat) : Except Fault (List α) :=
  if first ≤ last ∧ last ≤ l.length then .ok ((l.drop first).take (last - first))
  else .error .outOfRange

/-- How many children a page holds, by a difference. -/
def windowAt (start : Nat) (count : Option Nat) (total : Nat) : Except Fault Nat :=
  if total ≤ start then .ok 0
  else do
    let remaining ← boundedDifference total start
    .ok (match count with
      | some n => if 1 ≤ n ∧ n ≤ remaining then n else remaining
      | none => remaining)

/-- The objects of a page, one after the other, each with its position by a sum. -/
def numberFrom (start total : UInt64) : Nat → List Container → Except Fault (List Container)
  | _, [] => .ok []
  | i, c :: page => do
    let position ← boundedSum start.toNat i
    let page ← numberFrom start total (i + 1) page
    .ok (c.finalize (some (.ofNat position)) total :: page)

/-- A page of children, by sums, a difference and a slice. -/
def browseAt (c : Catalog) (id : String) (start : UInt64) (count : Option UInt64) :
    Except Fault (Option (List Container × UInt64)) :=
  match c.resolve id with
  | .served node => do
    let total := node.children.length
    let n ← windowAt start.toNat (count.map (·.toNat)) total
    let first := min start.toNat total
    let last ← boundedSum first n
    let page ← slice node.children first last
    let page ← numberFrom start (.ofNat total) 0 page
    .ok (some (page, .ofNat total))
  | _ => .ok none

theorem windowAt_eq_windowCount (start : Nat) (count : Option Nat) (total : Nat) :
    windowAt start count total = .ok (windowCount start count total) := by
  rw [windowAt, windowCount]
  split
  · rfl
  · rename_i h
    rw [boundedDifference, if_pos (by omega)]
    cases count <;> rfl

theorem numberFrom_eq_mapIdx {start : UInt64} (total : UInt64) {i : Nat} {page : List Container}
    (h : start.toNat + i + page.length ≤ UInt64.size) :
    numberFrom start total i page =
      .ok (page.mapIdx fun j c => c.finalize (some (.ofNat (start.toNat + (i + j)))) total) := by
  induction page generalizing i with
  | nil => rfl
  | cons c page ih =>
    rw [List.length_cons] at h
    rw [numberFrom, boundedSum, if_pos (by omega), ih (by omega), List.mapIdx_cons]
    simp only [bind, Except.bind, Nat.add_zero, Nat.add_assoc, Nat.add_comm 1]

theorem slice_eq_take {α : Type} {start k : Nat} {count : Option Nat} {l : List α}
    (h : Window start count l.length k) :
    slice l (min start l.length) (min start l.length + k) = .ok ((l.drop start).take k) := by
  rw [slice, if_pos ⟨Nat.le_add_right _ _, h.add_le⟩, Nat.add_sub_cancel_left, h.take_drop]

/-- No sum and no difference is beyond 64 bits, and the slice is within the list. -/
theorem browseAt_eq_browse {c : Catalog} {id : String} {node : Container}
    (hnode : c.resolve id = .served node) (hfit : node.children.length < UInt64.size)
    (start : UInt64) (count : Option UInt64) :
    c.browseAt id start count = c.browse id start count := by
  have hlength := start_add_length_le hfit start count
  have hwindow := window_windowCount start.toNat (count.map (·.toNat)) node.children.length
  generalize hk : windowCount start.toNat (count.map (·.toNat)) node.children.length = k
  rw [hk] at hlength hwindow
  have hbound := hwindow.add_le
  have hnumber := numberFrom_eq_mapIdx (.ofNat node.children.length) (i := 0) hlength
  simp only [browseAt, browse, hnode, windowAt_eq_windowCount, hk, boundedSum,
    if_pos (Nat.lt_of_le_of_lt hbound hfit), slice_eq_take hwindow,
    hnumber, finalizePage, if_pos hlength, bind, Except.bind, Nat.zero_add]

/-! ## Pages in a row -/

/-- The pages from a start up to the first of some positions, from there up to the next, and so
on, put together. -/
def pagesAlong (c : Catalog) (id : String) :
    UInt64 → List UInt64 → Except Fault (Option (List Container))
  | _, [] => .ok (some [])
  | start, stop :: stops => do
    let page ← c.browse id start (some (stop - start))
    let pages ← c.pagesAlong id stop stops
    .ok (page.bind fun page => pages.map (page.1 ++ ·))

section

variable {c : Catalog} {id : String} {node : Container} (hnode : c.resolve id = .served node)
  (hfit : node.children.length < UInt64.size)
include hnode hfit

/-- A page between two positions holds what stands between them. -/
theorem browse_between {start stop : UInt64} (h : start < stop)
    (hstop : stop.toNat ≤ node.children.length) :
    c.browse id start (some (stop - start)) =
      .ok (some ((node.shown.drop start.toNat).take (stop.toNat - start.toNat),
        .ofNat node.children.length)) := by
  have hlt := UInt64.lt_iff_toNat_lt.1 h
  rw [browse_eq hfit hnode, Option.map_some, UInt64.toNat_sub_of_le _ _ (UInt64.le_of_lt h),
    windowCount, if_neg (by omega)]
  dsimp only
  rw [if_pos (by omega)]

/-- Pages that end with the last child make up the list from where the first begins. -/
theorem pagesAlong_eq {start : UInt64} {stops : List UInt64}
    (h : (start :: stops).Pairwise (· < ·))
    (hlast : ((start :: stops).getLast (List.cons_ne_nil _ _)).toNat = node.children.length) :
    c.pagesAlong id start stops = .ok (some (node.shown.drop start.toNat)) := by
  induction stops generalizing start with
  | nil =>
    rw [List.getLast_singleton] at hlast
    rw [pagesAlong, hlast, ← Container.length_shown, List.drop_length]
  | cons stop stops ih =>
    obtain ⟨hfirst, hrest⟩ := List.pairwise_cons.1 h
    have hlt := hfirst stop List.mem_cons_self
    rw [List.getLast_cons (List.cons_ne_nil _ _)] at hlast
    have hstop : stop.toNat ≤ node.children.length := by
      rw [← hlast]
      rcases List.mem_cons.1 (List.getLast_mem (List.cons_ne_nil stop stops)) with he | hmem
      · exact Nat.le_of_eq (congrArg UInt64.toNat he.symm)
      · exact Nat.le_of_lt (UInt64.lt_iff_toNat_lt.1 (List.rel_of_pairwise_cons hrest hmem))
    have hdrop : stop.toNat = start.toNat + (stop.toNat - start.toNat) := by
      have := UInt64.lt_iff_toNat_lt.1 hlt
      omega
    rw [pagesAlong, browse_between hnode hfit hlt hstop, ih hrest hlast]
    simp only [bind, Except.bind, Option.bind_some, Option.map_some]
    have hsplit : node.shown.drop stop.toNat =
        (node.shown.drop start.toNat).drop (stop.toNat - start.toNat) := by
      rw [List.drop_drop, ← hdrop]
    rw [hsplit, List.take_append_drop]

end

/-- For every node that the catalog serves, as long as a machine holds its number of children, and
for every start and count: the page is answered without a fault, and holds the children from the
start on, as many as there are to be, with their positions and the number of all. Pages that begin
at the first child, each where the one before it ends, and end with the last child make up the page
of all. -/
theorem browse_pages {c : Catalog} {id : String} {node : Container}
    (hnode : c.resolve id = .served node) (hfit : node.children.length < UInt64.size) :
    (∀ start count, ∃ k page,
      Window start.toNat (count.map (·.toNat)) node.children.length k ∧
      c.browseAt id start count = .ok (some (page, .ofNat node.children.length)) ∧
      c.browse id start count = .ok (some (page, .ofNat node.children.length)) ∧
      IsPage node start.toNat k page) ∧
    ∀ stops : List UInt64, (0 :: stops).Pairwise (· < ·) →
      ((0 :: stops).getLast (List.cons_ne_nil _ _)).toNat = node.children.length →
      ∃ page, c.browse id 0 none = .ok (some (page, .ofNat node.children.length)) ∧
        c.pagesAlong id 0 stops = .ok (some page) := by
  refine ⟨fun start count => ?_, fun stops hchain hlast => ?_⟩
  · have hwindow := window_windowCount start.toNat (count.map (·.toNat)) node.children.length
    have hbrowse := browse_eq hfit hnode start count
    refine ⟨_, _, hwindow, (browseAt_eq_browse hnode hfit start count).trans hbrowse, hbrowse,
      isPage_shown hfit ?_⟩
    have hbound := hwindow.add_le
    omega
  · refine ⟨node.shown, ?_, pagesAlong_eq hnode hfit hchain hlast⟩
    have hall : windowCount (0 : UInt64).toNat none node.children.length = node.shown.length := by
      rw [Container.length_shown]
      exact (window_windowCount 0 none node.children.length).eq_of_all
    rw [browse_eq hfit hnode, Option.map_none, hall]
    exact congrArg (fun page => Except.ok (some (page, _))) List.take_length

/-- Three tapes, asked for from the second on, from far behind the last on, and in two pages. -/
theorem browse_pages_tapes :
    ∃ (c : Catalog) (tapes : Container), c.resolve "/tapes//" = .served tapes ∧
      tapes.children.map (·.label) = ["A", "B", "C"] ∧
      (∃ page, c.browse "/tapes//" 1 (some 5) = .ok (some (page, 3)) ∧ IsPage tapes 1 2 page) ∧
      c.browse "/tapes//" 0xffffffffffffffff (some 0xffffffffffffffff) = .ok (some ([], 3)) ∧
      ∃ page, c.browse "/tapes//" 0 none = .ok (some (page, 3)) ∧
        c.pagesAlong "/tapes//" 0 [2, 3] = .ok (some page) := by
  have hresolve : ∃ (c : Catalog) (tapes : Container), c.resolve "/tapes//" = .served tapes ∧
      tapes.children.map (·.label) = ["A", "B", "C"] :=
    ⟨⟨{ Container.root with
        children := [{ Container.new "/tapes" "Tapes" .directory with
          children := [.new "/tapes/a" "A" .song, .new "/tapes/b" "B" .song,
            .new "/tapes/c" "C" .song] }] }⟩, _, rfl, rfl⟩
  obtain ⟨c, tapes, htapes, hlabels⟩ := hresolve
  have hthree : tapes.children.length = 3 := by
    rw [← List.length_map (f := Container.label), hlabels]
    rfl
  obtain ⟨hpages, hrow⟩ := browse_pages htapes (by rw [hthree]; decide)
  rw [hthree] at hpages hrow
  refine ⟨c, tapes, htapes, hlabels, ?_, ?_, hrow [2, 3] (by decide) rfl⟩
  · obtain ⟨k, page, hwindow, -, hbrowse, hpage⟩ := hpages 1 (some 5)
    cases hwindow with
    | behind h => exact absurd h (by decide)
    | counted hcount _ hle =>
      obtain rfl := Option.some.inj hcount
      exact absurd hle (by decide)
    | remaining => exact ⟨page, hbrowse, hpage⟩
  · obtain ⟨k, page, hwindow, -, hbrowse, hpage⟩ := hpages 0xffffffffffffffff _
    cases hwindow with
    | behind =>
      rw [List.length_eq_zero_iff.1 hpage.length] at hbrowse
      exact hbrowse
    | counted _ _ hle => exact absurd (Nat.le_trans (Nat.le_add_right _ _) hle) (by decide)
    | remaining h => exact absurd h (by decide)

end Catalog

end Mediatheque
