import Mediatheque.Json.Record
import Mediatheque.Proofs.List

/-!
# Fields of records, written and read

A field that is written is found by its name, and read back if its own value is: a required
field (`required_of_lookup`), an optional one that is left out or `null` when it is absent
(`optional_of_lookup`, `optional_of_ofOption`), one with a default that is left out when it has
that (`withDefault_of_lookup`), and the items of a list (`list?_map`).

Conversely, what is read out of a record was read out of a value inside it (`of_required`,
`of_optional`, `of_withDefault`, `of_list?`), which is of the numbers that the record is of
(`Ranged`).
-/

namespace Mediatheque

namespace Json

variable {α β : Type} {fields : List (String × Json)} {name : String} {v : Json}
  {read : Json → Option α} {write : α → Json}

/-! ## Numbers -/

/-- The numbers in a value are those that a JSON text gives: integers from `-2 ^ 63` to
`2 ^ 64 - 1`, and finite floating-point numbers. -/
inductive Ranged : Json → Prop where
  | null : Ranged null
  | bool (b : Bool) : Ranged (bool b)
  | int {i : Int} (hmin : Int64.minValue.toInt ≤ i) (hmax : i < UInt64.size) : Ranged (int i)
  | float {x : Binary64} (h : x.isFinite) : Ranged (float x)
  | str (s : String) : Ranged (str s)
  | arr {items : List Json} (h : ∀ v ∈ items, Ranged v) : Ranged (arr items)
  | obj {fields : List (String × Json)} (h : ∀ f ∈ fields, Ranged f.2) : Ranged (obj fields)

/-- A reader goes on behind a field that has been read. -/
theorem bind_of_eq_some {o : Option α} {a : α} {next : α → Option β} (h : o = some a) :
    (o >>= next) = next a := by
  rw [h]
  rfl

theorem mem_of_lookup (h : fields.lookup name = some v) : (name, v) ∈ fields := by
  obtain ⟨before, after, rfl, -⟩ := List.lookup_eq_some_iff.1 h
  simp

theorem Ranged.of_lookup (hr : ∀ f ∈ fields, Ranged f.2) (h : fields.lookup name = some v) :
    Ranged v :=
  hr _ (mem_of_lookup h)

theorem Ranged.of_fields? {names : List String} (hr : Ranged v)
    (h : v.fields? names = some fields) : ∀ f ∈ fields, Ranged f.2 := by
  unfold fields? at h
  split at h
  · cases h
    cases hr with | obj hr => exact hr
  · split at h
    · cases h
      cases hr with | arr hr => exact fun f hf => hr _ (List.of_mem_zip hf).2
    · cases h
  · cases h

theorem Ranged.of_variant? {tag : String} {body : Json} (hr : Ranged v)
    (h : v.variant? = some (tag, body)) : Ranged body := by
  unfold variant? at h
  split at h
  · obtain ⟨_, -, h⟩ := Option.bind_eq_some_iff.1 h
    cases h
    exact hr
  · obtain ⟨_, -, h⟩ := Option.bind_eq_some_iff.1 h
    cases h
    cases hr with | arr hr => exact .arr fun w hw => hr w (List.mem_cons_of_mem _ hw)
  · cases h

/-! ## Finding a field that is written -/

theorem lookup_cons_eq_ite (name : String) (v : Json) (rest : List (String × Json))
    (key : String) :
    ((name, v) :: rest).lookup key = if key = name then some v else rest.lookup key := by
  by_cases h : key = name <;> simp [List.lookup_cons, h, beq_false_of_ne]

theorem lookup_field? (name : String) (write : α → Json) (o : Option α) (key : String) :
    (field? name write o).lookup key = if key = name then o.map write else none := by
  cases o with
  | none => simp [field?]
  | some a => rw [field?, lookup_cons_eq_ite, Option.map_some, List.lookup_nil]

/-! ## Reading a field that is written -/

theorem required_of_lookup (h : fields.lookup name = some v) :
    required fields name read = read v := by
  rw [required, h]
  rfl

theorem optional_of_none (h : fields.lookup name = none) :
    optional fields name read = some none := by
  rw [optional, h]

theorem optional_of_some (h : fields.lookup name = some v) (hv : v ≠ null) :
    optional fields name read = (read v).map some := by
  rw [optional, h]
  cases v with
  | null => exact absurd rfl hv
  | _ => rfl

/-- An optional field that is left out when it is absent is read back. -/
theorem optional_of_lookup {o : Option α} (h : fields.lookup name = o.map write)
    (hw : ∀ a ∈ o, write a ≠ null ∧ read (write a) = some a) :
    optional fields name read = some o := by
  cases o with
  | none => exact optional_of_none h
  | some a =>
    obtain ⟨hne, hread⟩ := hw a rfl
    rw [optional_of_some h hne, hread]
    rfl

/-- An optional field that is `null` when it is absent is read back. -/
theorem optional_of_ofOption {o : Option α} (h : fields.lookup name = some (ofOption write o))
    (hw : ∀ a ∈ o, write a ≠ null ∧ read (write a) = some a) :
    optional fields name read = some o := by
  cases o with
  | none =>
    rw [optional, h]
    rfl
  | some a =>
    obtain ⟨hne, hread⟩ := hw a rfl
    rw [ofOption] at h
    rw [optional_of_some h hne, hread]
    rfl

theorem withDefault_of_some {d : α} (h : fields.lookup name = some v) :
    withDefault fields name d read = read v := by
  rw [withDefault, h]

/-- A field with a default that is left out when it has that is read back. -/
theorem withDefault_of_lookup {d a : α} {isDefault : Bool}
    (h : fields.lookup name = if isDefault then none else some v) (hd : isDefault = true → a = d)
    (hread : read v = some a) : withDefault fields name d read = some a := by
  cases isDefault with
  | true => rw [withDefault, h, if_pos rfl, hd rfl]
  | false => rw [withDefault_of_some h, hread]

theorem list?_map {l : List α} (h : ∀ a ∈ l, read (write a) = some a) :
    list? read (.arr (l.map write)) = some l :=
  mapM_map_eq_some h

/-! ## Where a field was read -/

section

variable {p : α → Prop}

theorem of_required {a : α} (h : required fields name read = some a)
    (hp : ∀ v, fields.lookup name = some v → read v = some a → p a) : p a := by
  obtain ⟨v, hv, ha⟩ := Option.bind_eq_some_iff.1 h
  exact hp v hv ha

theorem of_optional {o : Option α} (h : optional fields name read = some o)
    (hp : ∀ v a, v ≠ null → read v = some a → p a) : ∀ a ∈ o, p a := by
  cases hl : fields.lookup name with
  | none =>
    rw [optional_of_none hl] at h
    cases h
    nofun
  | some v =>
    by_cases hv : v = null
    · rw [optional, hl, hv] at h
      cases h
      nofun
    · rw [optional_of_some hl hv] at h
      obtain ⟨a, ha, rfl⟩ := Option.map_eq_some_iff.1 h
      rintro _ ⟨⟩
      exact hp v a hv ha

theorem of_withDefault {d a : α} (h : withDefault fields name d read = some a) (hd : p d)
    (hp : ∀ v, read v = some a → p a) : p a := by
  unfold withDefault at h
  split at h
  · cases h
    exact hd
  · exact hp _ h

theorem of_list? {l : List α} (h : list? read v = some l)
    (hp : ∀ v a, read v = some a → p a) : ∀ a ∈ l, p a := by
  unfold list? at h
  split at h
  · rename_i items
    induction items generalizing l with
    | nil =>
      cases h
      nofun
    | cons item items ih =>
      rw [List.mapM_cons] at h
      obtain ⟨a, ha, h⟩ := Option.bind_eq_some_iff.1 h
      obtain ⟨rest, hrest, h⟩ := Option.bind_eq_some_iff.1 h
      cases h
      exact List.forall_mem_cons.2 ⟨hp item a ha, ih hrest⟩
  · cases h

end

/-! ## Plain values -/

theorem uint64?_uint64 (n : UInt64) : (uint64 n).uint64? = some n := by
  have h : (0 : Int) ≤ n.toNat ∧ (n.toNat : Int) < UInt64.size :=
    ⟨Int.natCast_nonneg _, Int.ofNat_lt.2 n.toNat_lt⟩
  rw [uint64, uint64?, if_pos h, Int.toNat_natCast, UInt64.ofNat_toNat]

theorem int64?_int64 (n : Int64) : (int64 n).int64? = some n := by
  rw [int64, int64?, if_pos ⟨n.minValue_le_toInt, n.toInt_le⟩, Int64.ofInt_toInt]

theorem required_string {s : String} (h : fields.lookup name = some (.str s)) :
    required fields name string? = some s :=
  required_of_lookup h

theorem optional_string {o : Option String} (h : fields.lookup name = o.map .str) :
    optional fields name string? = some o :=
  optional_of_lookup h fun _ _ => ⟨nofun, rfl⟩

theorem required_uint64 {n : UInt64} (h : fields.lookup name = some (uint64 n)) :
    required fields name uint64? = some n := by
  rw [required_of_lookup h, uint64?_uint64]

theorem withDefault_uint64 {d n : UInt64} (h : fields.lookup name = some (uint64 n)) :
    withDefault fields name d uint64? = some n := by
  rw [withDefault_of_some h, uint64?_uint64]

theorem optional_uint64 {o : Option UInt64} (h : fields.lookup name = o.map uint64) :
    optional fields name uint64? = some o :=
  optional_of_lookup h fun n _ => ⟨nofun, uint64?_uint64 n⟩

theorem list?_strings (l : List String) : list? string? (strings l) = some l :=
  list?_map fun _ _ => rfl

/-- The dictionary of the entries of one is that one. -/
theorem dictionary?_entries (d : Dictionary Json) : dictionary? (.obj d.entries) = some d := by
  rw [dictionary?, d.ofList_entries]

end Json

end Mediatheque
