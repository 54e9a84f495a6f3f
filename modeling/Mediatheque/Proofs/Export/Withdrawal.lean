import Mediatheque.Proofs.Export.Appending

/-!
# Taking addresses back

An object that comes back from a client loses the addresses that it was given. What is kept of a
list goes by its first source alone (`kept`): a file or a station stands for itself, and the rest
of the list goes with it. Added addresses stand behind the first source, and a list that has
neither a file nor a station in front gets none (`kept_completed`). So of a list that starts with
a file or a station, or has no file at all (`Restorable`), the same is kept with the addresses as
without them, and a list of one source is itself what is kept of it
(`deleteExternalUris_addExternalUris`).
-/

namespace Mediatheque

variable {exports : ExportTable} {canonical : Canonical} {stations : Option StationDirectory}
  {d : StationDirectory}

namespace SourceTable

variable {role : UriRole} {t : SourceTable} {l : List Source}

/-! ## One list -/

/-- What is kept of a list: its first source alone where that is a file or a station. -/
def kept (stations : Option StationDirectory) : List Source → List Source
  | first :: rest =>
    if first.isLocal || (stations.isSome && StationDirectory.handles first.uri) then [first]
    else first :: rest
  | [] => []

/-- A list starts with a file or a station. -/
def StartsWithOwn (l : List Source) : Prop :=
  ∃ first rest, l = first :: rest ∧
    (first.isLocal = true ∨ StationDirectory.handles first.uri = true)

/-- A list starts with a file or a station, or has no file. -/
def Restorable (l : List Source) : Prop := StartsWithOwn l ∨ ∀ s ∈ l, s.isLocal = false

theorem kept_append (h : StartsWithOwn l) (added : List Source) :
    kept (some d) (l ++ added) = kept (some d) l := by
  obtain ⟨first, rest, rfl, hfirst⟩ := h
  have hown : (first.isLocal ||
      ((some d).isSome && StationDirectory.handles first.uri)) = true := by
    rw [Option.isSome_some, Bool.true_and, Bool.or_eq_true]
    exact hfirst
  rw [List.cons_append, kept, kept, if_pos hown, if_pos hown]

/-- A list whose playlist is due starts with the station. -/
theorem startsWithOwn_of_playlistOf? {url : String} (h : playlistOf? stations l = some url) :
    StartsWithOwn l := by
  obtain ⟨d, -, h⟩ := Option.bind_eq_some_iff.1 h
  obtain ⟨first, hfirst, h⟩ := Option.bind_eq_some_iff.1 h
  obtain ⟨rest, rfl⟩ := List.head?_eq_some_iff.1 hfirst
  exact ⟨first, rest, rfl, .inr (Option.ite_none_right_eq_some.1 h).1⟩

/-- The same is kept of a list with what is due for it and without. -/
theorem kept_completed (h : Restorable l) :
    kept (some d) (completed exports canonical (some d) role l) = kept (some d) l := by
  obtain ⟨added, hadded, hgoes⟩ := exists_completed exports canonical (some d) role l
  rw [hadded]
  rcases h with hown | hnone
  · exact kept_append hown added
  · cases added with
    | nil => rw [List.append_nil]
    | cons s added =>
      cases hgoes.kind s List.mem_cons_self with
      | address hfile hlocal huri =>
        rw [hnone _ hfile] at hlocal
        cases hlocal
      | playlist hurl => exact kept_append (startsWithOwn_of_playlistOf? hurl) _

theorem kept_eq_self (h : l.length ≤ 1) : kept stations l = l := by
  match l, h with
  | [], _ => rfl
  | [first], _ =>
    rw [kept]
    split <;> rfl

/-! ## Whole tables -/

theorem get?_withoutExternals (t : SourceTable) (role : UriRole) :
    (t.withoutExternals stations).get? role = (t.get? role).map (kept stations) := by
  have hmap : t.withoutExternals stations = t.map (kept stations) :=
    congrArg (map · t) (funext fun l => by cases l <;> rfl)
  rw [hmap]
  cases role <;> rfl

theorem withoutExternals_withExternals (h : ∀ role, Restorable (t.sources role)) :
    (t.withExternals exports canonical (some d)).withoutExternals (some d) =
      t.withoutExternals (some d) := by
  refine ext_get? fun role => ?_
  have hrole := h role
  rw [get?_withoutExternals, get?_withoutExternals, get?_withExternals]
  rw [sources] at hrole
  cases hl : t.get? role with
  | none => rfl
  | some l =>
    rw [hl, Option.getD_some] at hrole
    rw [Option.map_some, Option.map_some, Option.map_some, kept_completed hrole]

theorem withoutExternals_eq_self (h : ∀ role, (t.sources role).length ≤ 1) :
    t.withoutExternals stations = t := by
  refine ext_get? fun role => ?_
  have hrole := h role
  rw [get?_withoutExternals]
  rw [sources] at hrole
  cases hl : t.get? role with
  | none => rfl
  | some l =>
    rw [hl, Option.getD_some] at hrole
    rw [Option.map_some, kept_eq_self hrole]

end SourceTable

/-! ## Objects -/

namespace Container

/-- The sources of an object and of its parts, at any depth, have a property. -/
inductive Everywhere (p : SourceTable → Prop) : Container → Prop where
  | mk {c : Container} (hsources : p c.sources) (hparts : ∀ q ∈ c.parts, q.Everywhere p) :
    c.Everywhere p

theorem everywhere_iff {p : SourceTable → Prop} {c : Container} :
    c.Everywhere p ↔ p c.sources ∧ ∀ q ∈ c.parts, q.Everywhere p :=
  ⟨fun ⟨hsources, hparts⟩ => ⟨hsources, hparts⟩, fun ⟨hsources, hparts⟩ => ⟨hsources, hparts⟩⟩

/-- The list of every role starts with a file or a station, or has no file. -/
def Restorable (c : Container) : Prop :=
  c.Everywhere fun t => ∀ role, SourceTable.Restorable (t.sources role)

/-- No role has more than one source. -/
def Plain (c : Container) : Prop := c.Everywhere fun t => ∀ role, (t.sources role).length ≤ 1

theorem deleteExternalUris_congr {c : Container} (h : c.Restorable) :
    (c.addExternalUris exports canonical (some d)).deleteExternalUris (some d) =
      c.deleteExternalUris (some d) := by
  obtain ⟨hsources, hparts⟩ := everywhere_iff.1 h
  have hmap : (c.parts.map fun p => p.addExternalUris exports canonical (some d)).map
      (fun p => p.deleteExternalUris (some d)) =
        c.parts.map fun p => p.deleteExternalUris (some d) := by
    rw [List.map_map]
    exact List.map_congr_left fun p hp => deleteExternalUris_congr (hparts p hp)
  rw [addExternalUris, deleteExternalUris, deleteExternalUris, hmap,
    SourceTable.withoutExternals_withExternals hsources]
termination_by c
decreasing_by exact sizeOf_lt_of_mem_parts hp

theorem deleteExternalUris_eq_self {c : Container} (h : c.Plain) :
    c.deleteExternalUris stations = c := by
  obtain ⟨hsources, hparts⟩ := everywhere_iff.1 h
  have hmap : c.parts.map (fun p => p.deleteExternalUris stations) = c.parts :=
    map_eq_self_iff.2 fun p hp => deleteExternalUris_eq_self (hparts p hp)
  rw [deleteExternalUris, hmap, SourceTable.withoutExternals_eq_self hsources]
  cases c
  rfl
termination_by c
decreasing_by exact sizeOf_lt_of_mem_parts hp

/-- Of an object whose lists start with a file or a station, or have no file, the same is left
whether or not it was given addresses before they are taken back. If moreover no role has more
than one source, that is the object itself. -/
theorem deleteExternalUris_addExternalUris {c : Container} (h : c.Restorable) :
    (c.addExternalUris exports canonical (some d)).deleteExternalUris (some d) =
        c.deleteExternalUris (some d) ∧
      (c.Plain → (c.addExternalUris exports canonical (some d)).deleteExternalUris (some d) = c) :=
  ⟨deleteExternalUris_congr h,
    fun hplain => (deleteExternalUris_congr h).trans (deleteExternalUris_eq_self hplain)⟩

/-- Objects of which every role has at most one source, none of them remote, at two depths. -/
def bare : Container :=
  { new "/movies/1" "One" .movie with
    sources := {
      src := some [{ uri := "radiobrowser:///9617a958", mtime := some 7 }]
      poster := some [] }
    parts := [{ new "/movies/1/a" "A" .movie with
      sources := {
        src := some [{ uri := "/films/one.mkv", mimetype := some "video/x-matroska" }]
        cover := some [{ uri := "radiobrowser:///9617a958" }] } }] }

theorem deleteExternalUris_addExternalUris_bare :
    let exports : ExportTable :=
      { rootUri := some "http://host", enabled := true, dirs := ["/films/"] }
    let d : StationDirectory := ⟨"radio.test"⟩
    bare.Restorable ∧ bare.Plain ∧
      (bare.addExternalUris exports (fun _ => none) (some d)).deleteExternalUris (some d) =
        bare := by
  intro exports d
  have hrestorable : bare.Restorable := by
    refine .mk ?_ (List.forall_mem_singleton.2 (.mk ?_ (List.forall_mem_nil _)))
    · rintro (_ | _ | _ | _ | _)
      · exact .inl ⟨_, _, rfl, .inr (by decide)⟩
      all_goals exact .inr (List.forall_mem_nil _)
    · rintro (_ | _ | _ | _ | _)
      · exact .inl ⟨_, _, rfl, .inl (by decide)⟩
      · exact .inl ⟨_, _, rfl, .inr (by decide)⟩
      all_goals exact .inr (List.forall_mem_nil _)
  have hplain : bare.Plain := by
    refine .mk ?_ (List.forall_mem_singleton.2 (.mk ?_ (List.forall_mem_nil _)))
    · rintro (_ | _ | _ | _ | _) <;> decide
    · rintro (_ | _ | _ | _ | _) <;> decide
  exact ⟨hrestorable, hplain, (deleteExternalUris_addExternalUris hrestorable).2 hplain⟩

end Container

end Mediatheque
