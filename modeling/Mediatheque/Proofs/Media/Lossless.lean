import Mediatheque.Media.Container.Json
import Mediatheque.Media.Parameter.Json
import Mediatheque.Proofs.Json.Record

/-!
# Objects and settings, written and read

An object that is written in JSON is read back as it was, with its children and parts at any
depth (`Container.ofJson?_toJson`), and so is the value of a setting
(`ParameterValue.ofJson?_toJson`). Three kinds of values have no text of their own and are told
apart as not `Reduced`: a class that is kept by its name although the table has that, a stream
layout `null`, and a number that is not finite. None of them is ever read
(`Container.reduced_of_ofJson?`, `ParameterValue.reduced_of_ofJson?`).
-/

namespace Mediatheque

open Json (Ranged bind_of_eq_some lookup_cons_eq_ite lookup_field? required_of_lookup
  optional_of_lookup withDefault_of_lookup withDefault_of_some required_string optional_string
  withDefault_uint64 optional_uint64 of_required of_optional of_withDefault of_list?)

/-! ## Classes -/

namespace MediaClass

/-- A class that is kept by its name does not have the name of one in the table. -/
def Reduced (c : MediaClass) : Prop := ∀ k ∈ known, c ≠ other k.name

theorem isOther_of_mem_known : ∀ c ∈ known, c.isOther = false := by decide

theorem reduced_ofName (s : String) : (ofName s).Reduced := by
  intro k hk h
  unfold ofName at h
  cases hf : known.find? (·.name = s) with
  | none =>
    rw [hf] at h
    have hne := List.find?_eq_none.1 hf k hk
    cases h
    exact hne (decide_eq_true rfl)
  | some c =>
    rw [hf, Option.getD_some] at h
    have hother := isOther_of_mem_known c (List.mem_of_find?_eq_some hf)
    rw [h] at hother
    cases hother

theorem ofName_name {c : MediaClass} (h : c.Reduced) : ofName c.name = c := by
  cases c with
  | other s =>
    have hf : known.find? (·.name = s) = none := by
      refine List.find?_eq_none.2 fun k hk hs => h k hk ?_
      rw [of_decide_eq_true hs]
    rw [ofName, name, hf]
    rfl
  | _ => rfl

theorem ofJson?_toJson {c : MediaClass} (h : c.Reduced) : ofJson? c.toJson = some c :=
  congrArg some (ofName_name h)

theorem reduced_of_ofJson? {v : Json} {c : MediaClass} (h : ofJson? v = some c) :
    c.Reduced := by
  obtain ⟨s, -, rfl⟩ := Option.map_eq_some_iff.1 h
  exact reduced_ofName s

end MediaClass

/-! ## Sources -/

namespace Source

/-- What a source is written as. -/
theorem lookup_toJson (s : Source) :
    ∃ fields, s.toJson = .obj fields ∧ fields.lookup "uri" = some (.str s.uri) ∧
      fields.lookup "mimetype" = s.mimetype.map .str ∧
      fields.lookup "mtime" = s.mtime.map Json.int64 :=
  ⟨_, rfl, by simp [List.lookup_append, lookup_field?],
    by simp [List.lookup_append, lookup_field?, lookup_cons_eq_ite],
    by simp [List.lookup_append, lookup_field?, lookup_cons_eq_ite]⟩

theorem ofJson?_toJson (s : Source) : ofJson? s.toJson = some s := by
  obtain ⟨fields, hs, huri, hmimetype, hmtime⟩ := s.lookup_toJson
  rw [ofJson?, hs]
  simp only [Json.fields?, Option.bind_eq_bind, Option.bind_some, required_string huri,
    optional_string hmimetype, optional_of_lookup hmtime fun n _ => ⟨nofun, Json.int64?_int64 n⟩]

end Source

theorem UriRole.ofName?_name (r : UriRole) : ofName? r.name = some r := by cases r <;> rfl

namespace SourceTable

/-- The field of a role, left out when the role is absent. -/
def roleField (r : UriRole) (l : Option (List Source)) : List (String × Json) :=
  Json.field? r.name (fun l => .arr (l.map Source.toJson)) l

theorem toJson_eq (t : SourceTable) :
    t.toJson = .obj (roleField .cover t.cover ++ (roleField .icon t.icon ++
      (roleField .poster t.poster ++ (roleField .src t.src ++
        (roleField .wallpaper t.wallpaper ++ []))))) := by
  simp only [List.append_nil, ← List.append_assoc]
  rfl

/-- A role that is written is set when it is read. -/
theorem ofFields?_roleField (t : SourceTable) (r : UriRole) (l : Option (List Source))
    (rest : List (String × Json)) :
    ofFields? t (roleField r l ++ rest) = ofFields? (l.elim t (t.set · r)) rest := by
  cases l with
  | none => rfl
  | some l =>
    rw [roleField, Json.field?, List.singleton_append, ofFields?, UriRole.ofName?_name,
      Json.list?_map fun s _ => s.ofJson?_toJson]
    rfl

theorem ofJson?_toJson (t : SourceTable) : ofJson? t.toJson = some t := by
  rw [toJson_eq, ofJson?]
  simp only [ofFields?_roleField, ofFields?]
  obtain ⟨_ | _, _ | _, _ | _, _ | _, _ | _⟩ := t <;> rfl

theorem eq_empty_of_isEmpty {t : SourceTable} (h : t.isEmpty = true) : t = {} := by
  have hnone (r : UriRole) : t.get? r = none := by
    cases hr : t.get? r with
    | none => rfl
    | some l =>
      have hmem : (r, l) ∈ t.entries :=
        List.mem_filterMap.2 ⟨r, by cases r <;> decide, by rw [hr]; rfl⟩
      rw [List.isEmpty_iff.1 h] at hmem
      cases hmem
  cases t
  congr
  · exact hnone .src
  · exact hnone .cover
  · exact hnone .poster
  · exact hnone .wallpaper
  · exact hnone .icon

end SourceTable

/-! ## Containers -/

namespace Json

theorem depth_le_depthItems {v : Json} {items : List Json} (h : v ∈ items) :
    v.depth ≤ depthItems items := by
  induction items with
  | nil => cases h
  | cons w items ih =>
    rw [depthItems]
    rcases List.mem_cons.1 h with rfl | h
    · exact Nat.le_max_left _ _
    · exact Nat.le_trans (ih h) (Nat.le_max_right _ _)

theorem depth_le_depthFields {f : String × Json} {fields : List (String × Json)}
    (h : f ∈ fields) : f.2.depth ≤ depthFields fields := by
  induction fields with
  | nil => cases h
  | cons g fields ih =>
    rw [depthFields]
    rcases List.mem_cons.1 h with rfl | h
    · exact Nat.le_max_left _ _
    · exact Nat.le_trans (ih h) (Nat.le_max_right _ _)

/-- The items of a list that is a field are nested less deep than the record. -/
theorem depth_add_two_le {name : String} {v : Json} {items : List Json}
    {fields : List (String × Json)} (h : fields.lookup name = some (.arr items)) (hv : v ∈ items) :
    v.depth + 2 ≤ (obj fields).depth := by
  have hitem := depth_le_depthItems hv
  have hfield := depth_le_depthFields (mem_of_lookup h)
  simp only [depth] at hfield ⊢
  omega

end Json

namespace Container

/-- Neither a container nor one below it, among its children and parts at any depth, is of a
class or has a stream layout that is written like another. -/
inductive Reduced : Container → Prop where
  | mk {c : Container} (mediaClass : c.mediaClass.Reduced)
      (childClass : ∀ k ∈ c.childClass, k.Reduced) (streams : c.streams ≠ some .null)
      (children : ∀ d ∈ c.children, d.Reduced) (parts : ∀ p ∈ c.parts, p.Reduced) :
      c.Reduced

/-- The fields that a container is written with. -/
structure Written (c : Container) (fields : List (String × Json)) : Prop where
  id : fields.lookup "id" = some (.str c.id)
  label : fields.lookup "label" = some (.str c.label)
  mediaClass : fields.lookup "class" = some c.mediaClass.toJson
  children : fields.lookup "children" =
    if c.children.isEmpty then none else some (.arr (c.children.map toJson))
  metadata : fields.lookup "metadata" =
    if c.metadata.isEmpty then none else some (.obj c.metadata.entries)
  backend : fields.lookup "backend" = c.backend.map .str
  editable : fields.lookup "editable" = some (.bool c.editable)
  childClasses : fields.lookup "child_classes" = c.childClasses.map Json.strings
  numChildren : fields.lookup "num_children" = some (Json.uint64 c.numChildren)
  numContainerChildren :
    fields.lookup "num_container_children" = some (Json.uint64 c.numContainerChildren)
  numItemChildren : fields.lookup "num_item_children" = some (Json.uint64 c.numItemChildren)
  sources : fields.lookup "sources" =
    if c.sources.isEmpty then none else some c.sources.toJson
  streams : fields.lookup "streams" = c.streams.map fun v => v
  parts : fields.lookup "parts" =
    if c.parts.isEmpty then none else some (.arr (c.parts.map toJson))
  idx : fields.lookup "idx" = c.idx.map Json.uint64
  total : fields.lookup "total" = c.total.map Json.uint64
  childClass : fields.lookup "child_class" = c.childClass.map MediaClass.toJson
  tooltip : fields.lookup "tooltip" = c.tooltip.map .str

theorem lookup_listField (name : String) (items : List Json) (key : String) :
    (listField name items).lookup key =
      if key = name then (if items.isEmpty then none else some (.arr items)) else none := by
  cases items with
  | nil => simp [listField]
  | cons v items => simp [listField, lookup_cons_eq_ite]

theorem lookup_ite (isDefault : Bool) (name : String) (v : Json) (key : String) :
    (if isDefault then [] else [(name, v)]).lookup key =
      if key = name then (if isDefault then none else some v) else none := by
  cases isDefault with
  | true => simp
  | false => rw [if_neg Bool.false_ne_true, lookup_cons_eq_ite]; rfl

theorem written_toJson (c : Container) : ∃ fields, c.toJson = .obj fields ∧ c.Written fields := by
  rw [toJson]
  refine ⟨_, rfl, ?_⟩
  constructor <;>
    simp [List.lookup_append, lookup_field?, lookup_listField, lookup_ite, lookup_cons_eq_ite]

theorem metadata_eq_empty {c : Container} (h : c.metadata.isEmpty = true) :
    c.metadata = .empty :=
  Dictionary.ext (List.isEmpty_iff.1 h)

/-- A container is read back if the depth that is looked into is that of its value at least. -/
theorem read?_toJson {c : Container} (hc : c.Reduced) {n : Nat} (hn : c.toJson.depth < n) :
    read? n c.toJson = some c := by
  induction hc generalizing n with
  | @mk c mediaClass childClass streams children parts ihchildren ihparts =>
    obtain ⟨fields, hfields, h⟩ := c.written_toJson
    obtain ⟨n, rfl⟩ : ∃ k, n = k + 1 := ⟨n - 1, by omega⟩
    have nested {name : String} {l : List Container}
        (hl : ∀ d ∈ l, ∀ {n}, d.toJson.depth < n → read? n d.toJson = some d)
        (hwritten : fields.lookup name =
          if l.isEmpty then none else some (.arr (l.map toJson))) :
        Json.withDefault fields name [] (Json.list? (read? n)) = some l := by
      refine withDefault_of_lookup hwritten List.isEmpty_iff.1 (Json.list?_map fun d hd => ?_)
      rw [if_neg fun he => List.ne_nil_of_mem hd (List.isEmpty_iff.1 he)] at hwritten
      have hdepth := Json.depth_add_two_le hwritten (List.mem_map_of_mem hd)
      rw [← hfields] at hdepth
      exact hl d hd (by omega)
    have hclass : Json.required fields "class" MediaClass.ofJson? = some c.mediaClass := by
      rw [required_of_lookup h.mediaClass, MediaClass.ofJson?_toJson mediaClass]
    have hmetadata := withDefault_of_lookup h.metadata metadata_eq_empty
      (Json.dictionary?_entries c.metadata)
    have heditable : Json.withDefault fields "editable" false Json.bool? = some c.editable :=
      withDefault_of_some h.editable
    have hchildClasses : Json.optional fields "child_classes" (Json.list? Json.string?) =
        some c.childClasses :=
      optional_of_lookup h.childClasses fun l _ => ⟨nofun, Json.list?_strings l⟩
    have hsources := withDefault_of_lookup h.sources SourceTable.eq_empty_of_isEmpty
      c.sources.ofJson?_toJson
    have hstreams : Json.optional fields "streams" some = some c.streams :=
      optional_of_lookup h.streams fun v hv => ⟨fun e => streams (e ▸ hv), rfl⟩
    have hchildClass := optional_of_lookup h.childClass
      fun k hk => ⟨nofun, MediaClass.ofJson?_toJson (childClass k hk)⟩
    have hobject : c.toJson.fields? fieldNames = some fields := by
      rw [hfields]
      rfl
    rw [read?, bind_of_eq_some hobject,
      bind_of_eq_some (required_string h.id), bind_of_eq_some (required_string h.label),
      bind_of_eq_some hclass, bind_of_eq_some (nested ihchildren h.children),
      bind_of_eq_some hmetadata, bind_of_eq_some (optional_string h.backend),
      bind_of_eq_some heditable, bind_of_eq_some hchildClasses,
      bind_of_eq_some (withDefault_uint64 h.numChildren),
      bind_of_eq_some (withDefault_uint64 h.numContainerChildren),
      bind_of_eq_some (withDefault_uint64 h.numItemChildren), bind_of_eq_some hsources,
      bind_of_eq_some hstreams, bind_of_eq_some (nested ihparts h.parts),
      bind_of_eq_some (optional_uint64 h.idx), bind_of_eq_some (optional_uint64 h.total),
      bind_of_eq_some hchildClass, bind_of_eq_some (optional_string h.tooltip)]
    cases c
    rfl

/-- A container that is written is read back, if it can be told from others. -/
theorem ofJson?_toJson {c : Container} (hc : c.Reduced) : ofJson? c.toJson = some c :=
  read?_toJson hc (Nat.lt_succ_self _)

/-- What an object takes from the fields that it is read from: its classes, its stream layout and
the objects within it. -/
structure ReadFrom (n : Nat) (fields : List (String × Json)) (c : Container) : Prop where
  mediaClass : Json.required fields "class" MediaClass.ofJson? = some c.mediaClass
  childClass : Json.optional fields "child_class" MediaClass.ofJson? = some c.childClass
  streams : Json.optional fields "streams" some = some c.streams
  children : Json.withDefault fields "children" [] (Json.list? (read? n)) = some c.children
  parts : Json.withDefault fields "parts" [] (Json.list? (read? n)) = some c.parts

theorem readFrom_of_read? {n : Nat} {v : Json} {c : Container} (h : read? (n + 1) v = some c) :
    ∃ fields, v.fields? fieldNames = some fields ∧ c.ReadFrom n fields := by
  obtain ⟨fields, hfields, h⟩ := Option.bind_eq_some_iff.1 h
  obtain ⟨id, -, h⟩ := Option.bind_eq_some_iff.1 h
  obtain ⟨label, -, h⟩ := Option.bind_eq_some_iff.1 h
  obtain ⟨mediaClass, hclass, h⟩ := Option.bind_eq_some_iff.1 h
  obtain ⟨children, hchildren, h⟩ := Option.bind_eq_some_iff.1 h
  obtain ⟨metadata, -, h⟩ := Option.bind_eq_some_iff.1 h
  obtain ⟨backend, -, h⟩ := Option.bind_eq_some_iff.1 h
  obtain ⟨editable, -, h⟩ := Option.bind_eq_some_iff.1 h
  obtain ⟨childClasses, -, h⟩ := Option.bind_eq_some_iff.1 h
  obtain ⟨numChildren, -, h⟩ := Option.bind_eq_some_iff.1 h
  obtain ⟨numContainers, -, h⟩ := Option.bind_eq_some_iff.1 h
  obtain ⟨numItems, -, h⟩ := Option.bind_eq_some_iff.1 h
  obtain ⟨sources, -, h⟩ := Option.bind_eq_some_iff.1 h
  obtain ⟨streams, hstreams, h⟩ := Option.bind_eq_some_iff.1 h
  obtain ⟨parts, hparts, h⟩ := Option.bind_eq_some_iff.1 h
  obtain ⟨idx, -, h⟩ := Option.bind_eq_some_iff.1 h
  obtain ⟨total, -, h⟩ := Option.bind_eq_some_iff.1 h
  obtain ⟨childClass, hchildClass, h⟩ := Option.bind_eq_some_iff.1 h
  obtain ⟨tooltip, -, h⟩ := Option.bind_eq_some_iff.1 h
  cases h
  exact ⟨fields, hfields, hclass, hchildClass, hstreams, hchildren, hparts⟩

/-- Whatever is read can be told from others. -/
theorem reduced_of_read? {n : Nat} {v : Json} {c : Container} (h : read? n v = some c) :
    c.Reduced := by
  induction n generalizing v c with
  | zero => cases h
  | succ n ih =>
    obtain ⟨fields, -, hfrom⟩ := readFrom_of_read? h
    have nested {name : String} {l : List Container}
        (hl : Json.withDefault fields name [] (Json.list? (read? n)) = some l) :
        ∀ d ∈ l, d.Reduced :=
      of_withDefault (p := fun l => ∀ d ∈ l, d.Reduced) hl nofun
        fun _ hv => of_list? (p := Reduced) hv fun _ _ => ih
    refine .mk ?_ ?_ ?_ (nested hfrom.children) (nested hfrom.parts)
    · exact of_required hfrom.mediaClass fun _ _ => MediaClass.reduced_of_ofJson?
    · exact of_optional hfrom.childClass fun _ _ _ => MediaClass.reduced_of_ofJson?
    · intro hnull
      exact of_optional (p := (· ≠ .null)) hfrom.streams
        (fun v w hv hw => Option.some.inj hw ▸ hv) .null hnull rfl

theorem reduced_of_ofJson? {v : Json} {c : Container} (h : ofJson? v = some c) :
    c.Reduced :=
  reduced_of_read? h

end Container

/-! ## Values of settings -/

namespace Binary64

/-- What stays below the bits of infinity is finite. -/
theorem isFinite_ofMagnitude {magnitude : Nat} (h : magnitude < 2047 * twoTo 52) :
    (ofMagnitude false magnitude).isFinite := by
  have hbits : (ofMagnitude false magnitude).bits.toNat = magnitude := by
    have hsize : 2047 * twoTo 52 < UInt64.size := by decide
    exact UInt64.toNat_ofNat_of_lt' (Nat.lt_trans h hsize)
  have hfield : magnitude / twoTo 52 < 2047 := Nat.div_lt_of_lt_mul (Nat.mul_comm _ _ ▸ h)
  have hmod : magnitude / twoTo 52 % twoTo 11 = magnitude / twoTo 52 :=
    Nat.mod_eq_of_lt (Nat.lt_trans hfield (by decide))
  rw [isFinite, exponentField, hbits, hmod]
  exact decide_eq_true (Nat.ne_of_lt hfield)

theorem roundDiv_le (num den : Nat) : roundDiv num den ≤ num / den + 1 := by
  unfold roundDiv
  simp only
  split
  · omega
  · split
    · omega
    · split <;> omega

theorem magnitude_of_word {n : Nat} (hmax : n < twoTo 64) :
    1085 * twoTo 52 + roundDiv n (twoTo 11) < 2047 * twoTo 52 := by
  have hround := roundDiv_le n (twoTo 11)
  have hquotient : n / twoTo 11 < twoTo 53 := Nat.div_lt_of_lt_mul hmax
  have hpow : twoTo 53 = 2 * twoTo 52 := rfl
  have hpos : 0 < twoTo 52 := by decide
  omega

/-- An integer whose highest bit is that of a word is rounded to a multiple of `2 ^ 11`. -/
theorem ofRatio_of_word {n : Nat} (hmin : twoTo 63 ≤ n) (hmax : n < twoTo 64) :
    ofRatio false n 1 = ofMagnitude false (1085 * twoTo 52 + roundDiv n (twoTo 11)) := by
  have hne : n ≠ 0 := fun h => absurd (h ▸ hmin) (by decide)
  have hlog : n.log2 = 63 := (Nat.log2_eq_iff hne).2 ⟨hmin, hmax⟩
  have hguess : ((63 : Nat) : Int) - (1 : Nat).log2 = 63 := by decide
  have hreaches : 1 * twoTo (63 : Int).toNat ≤ n := (Nat.one_mul _).symm ▸ hmin
  have hunit : max ((63 : Int) - 52) (-1074) = 11 := by decide
  have hscale : ((11 : Int) + 1074).toNat = 1085 := rfl
  rw [ofRatio, if_neg hne, hlog]
  dsimp only
  rw [hguess, if_pos (by decide : (0 : Int) ≤ 63), decide_eq_true hreaches, if_pos rfl, hunit,
    if_pos (by decide : (0 : Int) ≤ 11), Nat.one_mul, hscale]
  exact if_neg (Nat.not_le.2 (magnitude_of_word hmax))

theorem isFinite_ofRatio_of_word {n : Nat} (hmin : twoTo 63 ≤ n) (hmax : n < twoTo 64) :
    (ofRatio false n 1).isFinite := by
  rw [ofRatio_of_word hmin hmax]
  exact isFinite_ofMagnitude (magnitude_of_word hmax)

end Binary64

namespace ParameterValue

/-- A number of a setting is finite. -/
def Reduced : ParameterValue → Prop
  | float x => x.isFinite
  | _ => True

/-- An integer that fits into 64 bits without a sign alone is near a finite number. -/
theorem isFinite_floatOfInt {i : Int} (hmin : Int64.maxValue.toInt < i) (hmax : i < UInt64.size) :
    (floatOfInt i).isFinite := by
  have hlow : (twoTo 63 : Int) ≤ i := Int.add_one_le_iff.2 hmin
  have hneg : ¬ i < 0 := Int.not_lt.2 (Int.le_trans (by decide) hlow)
  rw [floatOfInt, decide_eq_false hneg]
  refine Binary64.isFinite_ofRatio_of_word ?_ ?_
  · omega
  · have hhigh : (UInt64.size : Int) = twoTo 64 := rfl
    omega

theorem ofJson?_toJson {p : ParameterValue} (h : p.Reduced) : ofJson? p.toJson = some p := by
  cases p with
  | bool b => rfl
  | int i =>
    have hi := Json.int64?_int64 i
    rw [Json.int64] at hi
    simp only [toJson, Json.int64, ofJson?, hi]
  | float x =>
    have hx : x.isFinite = true := h
    rw [toJson, if_pos hx, ofJson?]
  | string s => rfl
  | stringList l =>
    show (Json.list? Json.string? (Json.strings l)).map stringList = _
    rw [Json.list?_strings, Option.map_some]

theorem reduced_of_ofJson? {v : Json} (hv : Ranged v) {p : ParameterValue}
    (h : ofJson? v = some p) : p.Reduced := by
  cases hv with
  | null => cases h
  | obj _ => cases h
  | bool b =>
    cases h
    trivial
  | str s =>
    cases h
    trivial
  | float hx =>
    cases h
    exact hx
  | arr _ =>
    obtain ⟨l, -, rfl⟩ := Option.map_eq_some_iff.1 h
    trivial
  | @int i hmin hmax =>
    cases hi : Json.int64? (.int i) with
    | some n =>
      simp only [ofJson?, hi] at h
      cases h
      trivial
    | none =>
      simp only [ofJson?, hi] at h
      cases h
      refine isFinite_floatOfInt ?_ hmax
      refine Int.not_le.1 fun hle => ?_
      rw [Json.int64?, if_pos ⟨hmin, hle⟩] at hi
      cases hi

end ParameterValue

end Mediatheque
