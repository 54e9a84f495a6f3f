import Mathlib.Data.List.Forall2
import Mediatheque.Proofs.Export.Access
import Mediatheque.Proofs.Export.Addresses

/-!
# What the addresses of an object add to it

Each role goes by its own list of sources (`get?_withExternals`): what is due for the list is
appended, the playlist of a station first and the addresses of files behind it, each unless its
URI stands in the list already (`GoesOn`, `goesOn_completed`). So an object with its addresses is
the object with more sources at the end of its lists, and its parts likewise (`Completes`). None
of the new sources is a file itself, as long as the address of the server is not one of a file,
and the first source of a list stays the first: nothing new is due, and to add the addresses again
changes nothing (`addExternalUris_twice`).
-/

namespace Mediatheque

/-! ## One list -/

/-- Sources that are appended to a list, each of a kind and with a URI that occurs nowhere before
it. -/
structure GoesOn (kind : Source → Prop) (l added : List Source) : Prop where
  fresh : ∀ before s after, added = before ++ s :: after → ∀ t ∈ l ++ before, t.uri ≠ s.uri
  kind : ∀ s ∈ added, kind s

namespace GoesOn

variable {kind : Source → Prop} {l added rest : List Source} {s : Source}

theorem nil : GoesOn kind l [] :=
  ⟨fun _ _ _ h => absurd h (by simp), List.forall_mem_nil _⟩

theorem singleton (hfresh : ∀ t ∈ l, t.uri ≠ s.uri) (hs : kind s) : GoesOn kind l [s] := by
  refine ⟨fun before x after h => ?_, List.forall_mem_singleton.2 hs⟩
  obtain ⟨rfl, rfl, -⟩ : before = [] ∧ x = s ∧ after = [] := by
    simpa [List.singleton_eq_append_iff] using h
  rwa [List.append_nil]

theorem append (h : GoesOn kind l added) (h' : GoesOn kind (l ++ added) rest) :
    GoesOn kind l (added ++ rest) := by
  refine ⟨fun before s after heq => ?_, List.forall_mem_append.2 ⟨h.kind, h'.kind⟩⟩
  -- The source is one of `rest`, with all of `added` before it, or one of `added`.
  rcases List.append_eq_append_iff.1 heq with ⟨c, rfl, hrest⟩ | ⟨c, hadded, hs⟩
  · rw [← List.append_assoc]
    exact h'.fresh c s after hrest
  · cases c with
    | nil =>
      obtain rfl : added = before := by simpa using hadded
      simpa using h'.fresh [] s after hs.symm
    | cons x c =>
      obtain ⟨rfl, -⟩ := List.cons.inj hs
      exact h.fresh before s c hadded

end GoesOn

namespace SourceTable

variable {exports : ExportTable} {canonical : Canonical} {stations : Option StationDirectory}
  {role : UriRole} {t t' : SourceTable} {l : List Source}

/-- A list with a source at its end, unless it has one with that URI. -/
def appendUnique (l : List Source) (source : Source) : List Source :=
  if l.any (·.uri = source.uri) then l else l ++ [source]

/-- A list with the address of a file at its end, if the file is exported. -/
def appendAddress (exports : ExportTable) (canonical : Canonical) (l : List Source)
    (file : Source) : List Source :=
  match exports.localToExternal? canonical file.uri with
  | some uri => appendUnique l { uri := uri, mimetype := file.mimetype }
  | none => l

/-- A list with the addresses of its files. -/
def withAddresses (exports : ExportTable) (canonical : Canonical) (l : List Source) :
    List Source :=
  (l.filter Source.isLocal).foldl (appendAddress exports canonical) l

/-- The playlist of the station that a list starts with. -/
def playlistOf? (stations : Option StationDirectory) (l : List Source) : Option String := do
  let d ← stations
  let first ← l.head?
  if StationDirectory.handles first.uri then d.resolve? first.uri else none

/-- A list with the playlist of the station that it starts with. -/
def withPlaylist (stations : Option StationDirectory) (l : List Source) : List Source :=
  match playlistOf? stations l with
  | some url => appendUnique l { uri := url, mimetype := some playlistMimetype }
  | none => l

/-- The list of a role with all that is due for it. -/
def completed (exports : ExportTable) (canonical : Canonical)
    (stations : Option StationDirectory) (role : UriRole) (l : List Source) : List Source :=
  withAddresses exports canonical (if role = .src then withPlaylist stations l else l)

/-! ### Each role by itself -/

theorem ext_get? (h : ∀ role, t.get? role = t'.get? role) : t = t' := by
  cases t
  cases t'
  exact congr (congr (congr (congr (congrArg mk (h .src)) (h .cover)) (h .poster))
    (h .wallpaper)) (h .icon)

theorem get?_eq_ite {f : List Source → List Source} (h : (t.get? role).map f = t.get? role)
    (r : UriRole) : t.get? r = if r = role then (t.get? r).map f else t.get? r := by
  split
  · rename_i hr
    rw [hr, h]
  · rfl

theorem get?_addUnique (h : (t.get? role).isSome) (source : Source) (r : UriRole) :
    (t.addUnique role source).get? r =
      if r = role then (t.get? r).map (appendUnique · source) else t.get? r := by
  obtain ⟨l, hl⟩ := Option.isSome_iff_exists.1 h
  have hsources : t.sources role = l := by rw [sources, hl, Option.getD_some]
  rw [addUnique, hsources]
  split
  · rename_i hany
    refine get?_eq_ite ?_ r
    rw [hl, Option.map_some, appendUnique, if_pos hany]
  · rename_i hany
    rw [add, get?_set, hsources]
    split
    · rename_i hr
      rw [hr, hl, Option.map_some, appendUnique, if_neg hany]
    · rfl

variable (exports canonical) in
theorem get?_addExternal (h : (t.get? role).isSome) (file : Source) (r : UriRole) :
    (addExternal exports canonical role t file).get? r =
      if r = role then (t.get? r).map (appendAddress exports canonical · file) else t.get? r := by
  unfold addExternal appendAddress
  cases exports.localToExternal? canonical file.uri with
  | some uri => exact get?_addUnique h _ r
  | none => exact get?_eq_ite (Option.map_id' ..) r

theorem get?_foldl_addExternal (h : (t.get? role).isSome) (files : List Source) (r : UriRole) :
    (files.foldl (addExternal exports canonical role) t).get? r =
      if r = role then (t.get? r).map (files.foldl (appendAddress exports canonical))
      else t.get? r := by
  induction files generalizing t with
  | nil => exact get?_eq_ite (Option.map_id' ..) r
  | cons file files ih =>
    have hfile := get?_addExternal exports canonical h file
    have hsome : ((addExternal exports canonical role t file).get? role).isSome := by
      rw [hfile, if_pos rfl, Option.isSome_map]
      exact h
    rw [List.foldl_cons, ih hsome, hfile]
    split
    · rw [Option.map_map]
      rfl
    · rfl

theorem get?_addExternals (t : SourceTable) (role r : UriRole) :
    (t.addExternals exports canonical role).get? r =
      if r = role then (t.get? r).map (withAddresses exports canonical) else t.get? r := by
  rw [addExternals_eq, sources]
  cases hl : t.get? role with
  | none =>
    show t.get? r = _
    exact get?_eq_ite (by rw [hl, Option.map_none]) r
  | some l =>
    rw [Option.getD_some, get?_foldl_addExternal (hl ▸ rfl)]
    split
    · rename_i hr
      rw [hr, hl]
      rfl
    · rfl

theorem get?_addStation (t : SourceTable) (r : UriRole) :
    (t.addStation stations).get? r =
      if r = .src then (t.get? r).map (withPlaylist stations) else t.get? r := by
  have hplaylist : t.playlist? stations = playlistOf? stations (t.sources .src) := rfl
  rw [addStation_eq, hplaylist, sources]
  cases hl : t.get? .src with
  | none =>
    have hnone : playlistOf? stations [] = none := by cases stations <;> rfl
    rw [Option.getD_none, hnone]
    exact get?_eq_ite (by rw [hl, Option.map_none]) r
  | some l =>
    rw [Option.getD_some]
    cases hurl : playlistOf? stations l with
    | none => exact get?_eq_ite (by rw [hl, Option.map_some, withPlaylist, hurl]) r
    | some url =>
      show (t.addUnique .src _).get? r = _
      rw [get?_addUnique (hl ▸ rfl)]
      split
      · rename_i hr
        rw [hr, hl, Option.map_some, Option.map_some, withPlaylist, hurl]
      · rfl

variable (exports canonical stations role) in
/-- The list of each role is completed by itself, and an absent role stays so. -/
theorem get?_withExternals (t : SourceTable) :
    (t.withExternals exports canonical stations).get? role =
      (t.get? role).map (completed exports canonical stations role) := by
  rw [withExternals, UriRole.all]
  simp only [List.foldl_cons, List.foldl_nil, get?_addExternals, get?_addStation]
  cases role <;> simp <;> rfl

/-! ### What is appended -/

/-- The sources that stand for what is due for the list of a role: the addresses of its exported
files, and the playlist of the station that the main list starts with. -/
inductive Owed (exports : ExportTable) (canonical : Canonical)
    (stations : Option StationDirectory) (l : List Source) : UriRole → Source → Prop where
  | address {role : UriRole} {file : Source} {uri : String} (hfile : file ∈ l)
      (hlocal : file.isLocal = true)
      (huri : exports.localToExternal? canonical file.uri = some uri) :
    Owed exports canonical stations l role { uri := uri, mimetype := file.mimetype }
  | playlist {url : String} (hurl : playlistOf? stations l = some url) :
    Owed exports canonical stations l .src { uri := url, mimetype := some playlistMimetype }

theorem not_isLocal_of_playlistOf? {url : String} (h : playlistOf? stations l = some url)
    (mimetype : Option String) : Source.isLocal { uri := url, mimetype := mimetype } = false := by
  obtain ⟨d, -, h⟩ := Option.bind_eq_some_iff.1 h
  obtain ⟨first, -, h⟩ := Option.bind_eq_some_iff.1 h
  rw [Option.ite_none_right_eq_some] at h
  obtain ⟨rest, -, h⟩ := Option.bind_eq_some_iff.1 h.2
  rw [Option.ite_none_left_eq_some] at h
  rw [← Option.some.inj h.2, Source.isLocal]
  simp [String.toList_append]

theorem exists_appendUnique (l : List Source) {kind : Source → Prop} {s : Source} (hs : kind s) :
    ∃ added, appendUnique l s = l ++ added ∧ GoesOn kind l added := by
  rw [appendUnique]
  split
  · exact ⟨[], (List.append_nil l).symm, .nil⟩
  · rename_i hany
    refine ⟨[s], rfl, .singleton (fun t ht huri => hany ?_) hs⟩
    exact List.any_eq_true.2 ⟨t, ht, decide_eq_true huri⟩

theorem exists_foldl_appendAddress {kind : Source → Prop} {files : List Source}
    (hfiles : ∀ file ∈ files, ∀ uri, exports.localToExternal? canonical file.uri = some uri →
      kind { uri := uri, mimetype := file.mimetype }) (l : List Source) :
    ∃ added, files.foldl (appendAddress exports canonical) l = l ++ added ∧
      GoesOn kind l added := by
  induction files generalizing l with
  | nil => exact ⟨[], (List.append_nil l).symm, .nil⟩
  | cons file files ih =>
    obtain ⟨hfile, hfiles⟩ := List.forall_mem_cons.1 hfiles
    have hfirst : ∃ added, appendAddress exports canonical l file = l ++ added ∧
        GoesOn kind l added := by
      unfold appendAddress
      cases huri : exports.localToExternal? canonical file.uri with
      | some uri => exact exists_appendUnique l (hfile uri huri)
      | none => exact ⟨[], (List.append_nil l).symm, .nil⟩
    obtain ⟨added, hadded, hgoes⟩ := hfirst
    obtain ⟨rest, hrest, hgoes'⟩ := ih hfiles (l ++ added)
    refine ⟨added ++ rest, ?_, hgoes.append hgoes'⟩
    rw [List.foldl_cons, hadded, hrest, List.append_assoc]

variable (exports canonical stations) in
theorem exists_withPlaylist (l : List Source) :
    ∃ added, withPlaylist stations l = l ++ added ∧
      GoesOn (Owed exports canonical stations l .src) l added := by
  rw [withPlaylist]
  cases hurl : playlistOf? stations l with
  | none => exact ⟨[], (List.append_nil l).symm, .nil⟩
  | some url => exact exists_appendUnique l (.playlist hurl)

/-- The playlist of a station is no file. -/
theorem mem_of_mem_withPlaylist {s : Source} (h : s ∈ withPlaylist stations l)
    (hlocal : s.isLocal = true) : s ∈ l := by
  rw [withPlaylist] at h
  cases hurl : playlistOf? stations l with
  | none =>
    rw [hurl] at h
    exact h
  | some url =>
    rw [hurl] at h
    simp only [appendUnique] at h
    split at h
    · exact h
    · rcases List.mem_append.1 h with hl | hnew
      · exact hl
      · rw [List.mem_singleton.1 hnew, not_isLocal_of_playlistOf? hurl] at hlocal
        cases hlocal

variable (exports canonical stations role) in
/-- A completed list goes on from what it was, with what is due for it. -/
theorem exists_completed (l : List Source) :
    ∃ added, completed exports canonical stations role l = l ++ added ∧
      GoesOn (Owed exports canonical stations l role) l added := by
  have haddresses (l' : List Source) (hl' : ∀ file ∈ l', file.isLocal = true → file ∈ l) :
      ∃ added, withAddresses exports canonical l' = l' ++ added ∧
        GoesOn (Owed exports canonical stations l role) l' added := by
    refine exists_foldl_appendAddress (fun file hfile uri huri => ?_) l'
    obtain ⟨hmem, hlocal⟩ := List.mem_filter.1 hfile
    exact .address (hl' file hmem hlocal) hlocal huri
  rw [completed]
  split
  · rename_i hrole
    subst hrole
    obtain ⟨first, hfirst, hgoes⟩ := exists_withPlaylist exports canonical stations l
    obtain ⟨rest, hrest, hgoes'⟩ := haddresses (withPlaylist stations l) fun file hfile hlocal =>
      mem_of_mem_withPlaylist hfile hlocal
    rw [hfirst] at hrest hgoes'
    refine ⟨first ++ rest, ?_, hgoes.append hgoes'⟩
    rw [hfirst, hrest, List.append_assoc]
  · exact haddresses l fun file hfile _ => hfile

/-! ### Whole tables -/

/-- A table with all that is due for another behind the lists of its roles. -/
structure Completes (exports : ExportTable) (canonical : Canonical)
    (stations : Option StationDirectory) (t t' : SourceTable) : Prop where
  appends : ∀ role, ∃ added, t'.get? role = (t.get? role).map (· ++ added) ∧
    GoesOn (Owed exports canonical stations (t.sources role) role) (t.sources role) added
  complete : ∀ role s, Owed exports canonical stations (t.sources role) role s →
    t'.Has role s.uri

variable (exports canonical stations) in
theorem completes_withExternals (t : SourceTable) :
    t.Completes exports canonical stations (t.withExternals exports canonical stations) := by
  obtain ⟨hfiles, hplaylist⟩ := has_withExternals exports canonical stations t
  constructor
  · intro role
    obtain ⟨added, hadded, hgoes⟩ :=
      exists_completed exports canonical stations role (t.sources role)
    refine ⟨added, ?_, hgoes⟩
    rw [get?_withExternals]
    cases hl : t.get? role with
    | none => rfl
    | some l =>
      rw [sources, hl, Option.getD_some] at hadded
      rw [Option.map_some, Option.map_some, hadded]
  · intro role s hs
    cases hs with
    | address hfile hlocal huri => exact hfiles _ _ ⟨_, hfile, hlocal, huri⟩
    | playlist hurl => exact hplaylist _ hurl

theorem not_owed_nil {s : Source} : ¬ Owed exports canonical stations [] role s := by
  rintro (⟨hfile, -, -⟩ | ⟨hurl⟩)
  · cases hfile
  · cases stations <;> cases hurl

namespace Completes

variable (h : t.Completes exports canonical stations t')
include h

theorem exists_sources (role : UriRole) :
    ∃ added, t'.sources role = t.sources role ++ added ∧
      GoesOn (Owed exports canonical stations (t.sources role) role) (t.sources role) added := by
  obtain ⟨added, hadded, hgoes⟩ := h.appends role
  cases hl : t.get? role with
  | some l =>
    refine ⟨added, ?_, hgoes⟩
    rw [sources, sources, hadded, hl]
    rfl
  | none =>
    refine ⟨[], ?_, .nil⟩
    rw [sources, sources, hadded, hl]
    rfl

/-- The first source stays the first. -/
theorem head?_eq (role : UriRole) : (t'.sources role).head? = (t.sources role).head? := by
  obtain ⟨added, hsources, hgoes⟩ := h.exists_sources role
  rw [hsources]
  cases hl : t.sources role with
  | cons first rest => rfl
  | nil =>
    cases added with
    | nil => rfl
    | cons s added =>
      rw [hl] at hgoes
      exact absurd (hgoes.kind s List.mem_cons_self) not_owed_nil

end Completes

end SourceTable

/-! ## Twice -/

namespace ExportTable

/-- The address of the server, if there is one, is not empty and does not start with a slash as
the path of a file does. -/
def Remote (t : ExportTable) : Prop :=
  ∀ root, t.rootUri = some root → root ≠ "" ∧ root.toList.head? ≠ some '/'

theorem Remote.not_isLocal {t : ExportTable} (h : t.Remote) {canonical : Canonical}
    {path address : String} (haddress : t.localToExternal? canonical path = some address)
    (mimetype : Option String) :
    Source.isLocal { uri := address, mimetype := mimetype } = false := by
  obtain ⟨-, -, root, dir, hroot, -, rfl⟩ := localToExternal?_eq_some_iff.1 haddress
  obtain ⟨hne, hslash⟩ := h root hroot
  rw [Source.isLocal, decide_eq_false_iff_not, String.append_assoc, String.toList_append]
  cases hchars : root.toList with
  | nil => exact absurd (String.toList_eq_nil_iff.1 hchars) hne
  | cons c rest =>
    rw [hchars] at hslash
    exact hslash

end ExportTable

namespace SourceTable

variable {exports : ExportTable} {canonical : Canonical} {stations : Option StationDirectory}

/-- What has been added is no file, so that nothing new is due. -/
theorem addressed_withExternals (hremote : exports.Remote) (t : SourceTable) :
    (t.withExternals exports canonical stations).Addressed exports canonical stations := by
  have hcompletes := completes_withExternals exports canonical stations t
  constructor
  · rintro role uri ⟨file, hfile, hlocal, huri⟩
    obtain ⟨added, hsources, hgoes⟩ := hcompletes.exists_sources role
    rw [hsources, List.mem_append] at hfile
    rcases hfile with hold | hnew
    · exact hcompletes.complete role _ (.address hold hlocal huri)
    · exfalso
      cases hgoes.kind file hnew with
      | address _ _ haddress =>
        rw [hremote.not_isLocal haddress] at hlocal
        cases hlocal
      | playlist hurl =>
        rw [not_isLocal_of_playlistOf? hurl] at hlocal
        cases hlocal
  · intro url hurl
    rw [playlist?, hcompletes.head?_eq] at hurl
    exact hcompletes.complete .src _ (.playlist hurl)

end SourceTable

namespace Container

variable {exports : ExportTable} {canonical : Canonical} {stations : Option StationDirectory}

/-- An object with all that is due for it and for its parts, at any depth, behind the sources that
another has. All else of the two is the same. -/
inductive Completes (exports : ExportTable) (canonical : Canonical)
    (stations : Option StationDirectory) : Container → Container → Prop where
  | mk {c : Container} {sources : SourceTable} {parts : List Container}
      (hsources : c.sources.Completes exports canonical stations sources)
      (hparts : List.Forall₂ (Completes exports canonical stations) c.parts parts) :
    Completes exports canonical stations c { c with sources := sources, parts := parts }

theorem completes_addExternalUris (c : Container) :
    c.Completes exports canonical stations (c.addExternalUris exports canonical stations) := by
  rw [addExternalUris]
  refine .mk (SourceTable.completes_withExternals exports canonical stations c.sources) ?_
  rw [List.forall₂_map_right_iff, List.forall₂_same]
  exact fun p hp => completes_addExternalUris p
termination_by c
decreasing_by exact sizeOf_lt_of_mem_parts hp

theorem addressed_addExternalUris (hremote : exports.Remote) (c : Container) :
    (c.addExternalUris exports canonical stations).Addressed exports canonical stations := by
  rw [addExternalUris]
  refine .mk (SourceTable.addressed_withExternals hremote c.sources) fun p hp => ?_
  obtain ⟨q, hq, rfl⟩ := List.mem_map.1 hp
  exact addressed_addExternalUris hremote q
termination_by c
decreasing_by exact sizeOf_lt_of_mem_parts hq

/-- If the address of the server is not that of a file, an object that has been given its addresses
is left as it is by giving them again. What it has been given stands at the ends of its lists and
of those of its parts, where each URI is new, and nothing else of it has changed. -/
theorem addExternalUris_twice (hremote : exports.Remote) (c : Container) :
    (c.addExternalUris exports canonical stations).addExternalUris exports canonical stations =
        c.addExternalUris exports canonical stations ∧
      c.Completes exports canonical stations (c.addExternalUris exports canonical stations) :=
  ⟨addExternalUris_eq_self_iff.2 (addressed_addExternalUris hremote c), completes_addExternalUris c⟩

/-- A station with a recording of it, and a cover that stands in two lists. -/
def recorded : Container :=
  { new "/radio/1" "One" .audioBroadcast with
    sources := {
      src := some [{ uri := "radiobrowser:///9617a958" }, { uri := "/music/one.mp3" }]
      cover := some [] }
    parts := [{ new "/radio/1/a" "A" .song with
      sources := {
        cover := some [{ uri := "/music/a.jpg" }, { uri := "/music/a.jpg", mimetype := some "x" }]
        icon := some [{ uri := "http://host/a.ico" }, { uri := "/music/a.jpg" }] } }] }

theorem addExternalUris_twice_recorded :
    let exports : ExportTable :=
      { rootUri := some "http://host", enabled := true, dirs := ["/music/"] }
    let stations := some ⟨"radio.test"⟩
    exports.Remote ∧
      (recorded.addExternalUris exports (fun _ => none) stations).addExternalUris exports
        (fun _ => none) stations = recorded.addExternalUris exports (fun _ => none) stations ∧
      recorded.Completes exports (fun _ => none) stations
        (recorded.addExternalUris exports (fun _ => none) stations) := by
  intro exports stations
  have hremote : exports.Remote := by
    rintro root ⟨⟩
    decide
  exact ⟨hremote, addExternalUris_twice hremote recorded⟩

end Container

end Mediatheque
