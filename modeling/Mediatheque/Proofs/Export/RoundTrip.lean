import Mathlib.Data.List.Nodup
import Mediatheque.Proofs.Export.Access
import Mediatheque.Proofs.Text.Percent

/-!
# Addresses lead back to their files

The address of a file names the first directory of the table that the file is in, by a digest, and
goes on with the rest of the path in its written form. Digests are of one length
(`length_pathHash`), so that an address starts with that of one directory only, as long as digests
tell the directories of the table apart (`find?_startsWith_externalPath`). And nothing in the name
of a directory is ever encoded (`encode_externalPath`): reading the address back gives the digest
and the rest, which lead to the file (`externalToLocal?_of_localToExternal?`).
-/

namespace Mediatheque

/-! ## Digests -/

namespace Sha256

theorem length_bytesOf (n x : Nat) : (bytesOf n x).length = n := by
  induction n generalizing x with
  | zero => rfl
  | succ n ih => rw [bytesOf, List.length_append, ih, List.length_singleton]

theorem length_digest (bytes : List UInt8) : (digest bytes).length = 32 := by
  simp only [digest, List.flatMap_cons, List.flatMap_nil, List.length_append, length_bytesOf,
    List.length_nil]

end Sha256

theorem length_pathHash (path : String) : (pathHash path).toList.length = 32 := by
  simp [pathHash, Sha256.hexDigest, List.length_flatMap, hexByte, Sha256.length_digest]

theorem not_isReserved_hexDigitOf : ∀ n < 16, Percent.isReserved (hexDigitOf n) = false := by
  decide

/-- No character of a digest is encoded. -/
theorem not_isReserved_pathHash (path : String) :
    ∀ c ∈ (pathHash path).toList, Percent.isReserved c = false := by
  intro c hc
  rw [pathHash, Sha256.hexDigest, String.toList_ofList, List.mem_flatMap] at hc
  obtain ⟨b, -, hc⟩ := hc
  have hb : b.toNat < 256 := b.toNat_lt
  rcases List.mem_pair.1 hc with rfl | rfl
  · exact not_isReserved_hexDigitOf _ (by omega)
  · exact not_isReserved_hexDigitOf _ (by omega)

namespace ExportTable

variable {t : ExportTable} {canonical : Canonical} {path address dir : String}

/-! ## Addresses of directories -/

theorem toList_externalPath (dir : String) :
    (externalPath dir).toList = "/media/".toList ++ (pathHash dir).toList ++ ['/'] := by
  rw [externalPath, String.toList_append, String.toList_append]
  rfl

theorem encode_externalPath (dir : String) :
    Percent.encode (externalPath dir).toList = (externalPath dir).toList := by
  have hmedia : "/media/".toList.all (fun c => !Percent.isReserved c) = true := by decide
  refine Percent.encode_eq_self fun c hc => ?_
  rw [toList_externalPath, List.mem_append, List.mem_append] at hc
  rcases hc with (hc | hc) | hc
  · simpa using List.all_eq_true.1 hmedia c hc
  · exact not_isReserved_pathHash dir c hc
  · rw [List.mem_singleton.1 hc]
    decide

/-- Of two addresses of directories none is the beginning of another, but for directories with one
digest. -/
theorem pathHash_eq_of_append_eq {other rest rest' : String}
    (h : externalPath dir ++ rest = externalPath other ++ rest') :
    pathHash dir = pathHash other := by
  have hchars := congrArg String.toList h
  rw [String.toList_append, String.toList_append, toList_externalPath,
    toList_externalPath] at hchars
  simp only [List.append_assoc, List.append_cancel_left_eq] at hchars
  refine String.toList_inj.1 (List.append_inj hchars ?_).1
  rw [length_pathHash, length_pathHash]

/-- If digests tell directories apart, what starts with the address of one leads to it. -/
theorem find?_startsWith_externalPath {dirs : List String} (hdigests : (dirs.map pathHash).Nodup)
    (hdir : dir ∈ dirs) (rest : String) :
    dirs.find? (fun d => startsWith (externalPath dir ++ rest) (externalPath d)) = some dir := by
  have hself : startsWith (externalPath dir ++ rest) (externalPath dir) = true :=
    startsWith_iff.2 ⟨rest, rfl⟩
  cases hfound : dirs.find? (fun d => startsWith (externalPath dir ++ rest) (externalPath d)) with
  | none => exact absurd hself (List.find?_eq_none.1 hfound dir hdir)
  | some other =>
    have hstarts := List.find?_some hfound
    obtain ⟨rest', hrest⟩ := startsWith_iff.1 hstarts
    have hsame := List.inj_on_of_nodup_map hdigests hdir (List.mem_of_find?_eq_some hfound)
      (pathHash_eq_of_append_eq hrest)
    rw [hsame]

/-! ## There and back -/

/-- The path of a directory's address with more behind it is that of the file there, if that is
exported. -/
theorem externalToLocal?_externalPath (hdigests : (t.dirs.map pathHash).Nodup) (hdir : dir ∈ t.dirs)
    {rest : String} (h : t.isExported canonical (dir ++ rest) = true) :
    t.externalToLocal? canonical (externalPath dir ++ rest) = some (dir ++ rest) := by
  refine externalToLocal?_eq_some_iff.2 ⟨dir, rest, ?_, rfl, rfl, ?_⟩
  · exact find?_startsWith_externalPath hdigests hdir rest
  · exact (isExported_append hdir canonical rest).1 h

/-- An address leads back to a file: it is the address of the server with something behind it that,
once decoded, is the path of an address for the file. -/
def LeadsBack (t : ExportTable) (canonical : Canonical) (address path : String) : Prop :=
  ∃ root written plain, t.rootUri = some root ∧ address = root ++ written ∧
    Percent.decode written = some plain ∧ t.externalToLocal? canonical plain = some path

theorem leadsBack_of_localToExternal? (hdigests : (t.dirs.map pathHash).Nodup)
    (hpath : path ++ "/" ∉ t.dirs) (h : t.localToExternal? canonical path = some address) :
    t.LeadsBack canonical address path := by
  obtain ⟨-, hexported, root, dir, hroot, hdir, rfl⟩ := localToExternal?_eq_some_iff.1 h
  have hmem : dir ∈ t.dirs := List.mem_of_find?_eq_some hdir
  have hcovers : covers dir path = true := by simpa using List.find?_some hdir
  -- The path is not that of the directory itself, so that it goes on behind it.
  obtain ⟨rest, rfl⟩ : ∃ rest, path = dir ++ rest := by
    rcases Bool.or_eq_true_iff.1 hcovers with hstarts | hself
    · exact startsWith_iff.1 hstarts
    · exact absurd (of_decide_eq_true hself ▸ hmem) hpath
  rw [afterPrefix?_eq_some_iff.2 rfl, Option.getD_some, String.append_assoc]
  refine ⟨root, _, externalPath dir ++ rest, hroot, rfl, ?_,
    externalToLocal?_externalPath hdigests hmem hexported⟩
  have hwritten : externalPath dir ++ String.ofList (Percent.encode rest.toList) =
      String.ofList (Percent.encode (externalPath dir ++ rest).toList) := by
    refine String.toList_inj.1 ?_
    rw [String.toList_append, String.toList_ofList, String.toList_ofList, String.toList_append,
      Percent.encode_append, encode_externalPath]
  rw [hwritten, Percent.decode_encode]

/-- What an address leads back to is determined by the address. -/
theorem LeadsBack.unique {other : String} (h : t.LeadsBack canonical address path)
    (h' : t.LeadsBack canonical address other) : path = other := by
  obtain ⟨root, written, plain, hroot, rfl, hplain, hpath⟩ := h
  obtain ⟨root', written', plain', hroot', hsame, hplain', hother⟩ := h'
  obtain rfl := Option.some.inj (hroot.symm.trans hroot')
  obtain rfl := (String.append_right_inj _).1 hsame
  obtain rfl := Option.some.inj (hplain.symm.trans hplain')
  exact Option.some.inj (hpath.symm.trans hother)

/-- If digests tell the directories of a table apart, the address of a file leads back to the file,
unless its path is that of a directory without its slash, and no two such files have one address. -/
theorem addresses_lead_back (hdigests : (t.dirs.map pathHash).Nodup) :
    (∀ path address, path ++ "/" ∉ t.dirs → t.localToExternal? canonical path = some address →
      t.LeadsBack canonical address path) ∧
    ∀ path other address, path ++ "/" ∉ t.dirs → other ++ "/" ∉ t.dirs →
      t.localToExternal? canonical path = some address →
      t.localToExternal? canonical other = some address → path = other := by
  refine ⟨fun path address hpath h => leadsBack_of_localToExternal? hdigests hpath h, ?_⟩
  intro path other address hpath hother h h'
  exact (leadsBack_of_localToExternal? hdigests hpath h).unique
    (leadsBack_of_localToExternal? hdigests hother h')

/-- A directory in front of the one above it. -/
def nested : List Change :=
  [.setRootUri "http://host/", .setParameter "export_media_dirs" (.bool true),
    .add "/music/live", .add "/music"]

/-- The name of the file is encoded in its address, and is read back. -/
theorem addresses_lead_back_nested :
    (empty.performAll nested).LeadsBack (fun _ => none)
      ("http://host" ++ externalPath "/music/live/" ++ "50%25%20%C3%A9.mp3")
      "/music/live/50% é.mp3" := by
  have hdigests : (["/music/live/", "/music/"].map pathHash).Nodup := by decide +kernel
  have hwritten : String.ofList (Percent.encode ((afterPrefix? "/music/live/"
      "/music/live/50% é.mp3").getD "").toList) = "50%25%20%C3%A9.mp3" := by decide
  refine (addresses_lead_back hdigests).1 _ _ (by decide) ?_
  refine localToExternal?_eq_some_iff.2
    ⟨by decide, by decide, "http://host", "/music/live/", by decide, by decide, ?_⟩
  rw [hwritten]

end ExportTable

end Mediatheque
