import Mediatheque.Proofs.Catalog.Editing
import Mediatheque.Proofs.Catalog.Fields
import Mediatheque.Proofs.Media.Names
import Mediatheque.Proofs.Message.Lossless

/-!
# One class for one name

A class reaches an object by its name, and by several ways: a caller makes the object with the class
of a text, a message has an object or a volume with the name in it, or changed fields with the name
are merged into a catalog. All of them give the class of the table (`setsClass_parse`), and by the
table names and classes correspond one to one (`MediaClass.names_correspond`).
-/

namespace Mediatheque

open Json (optional_of_some required_of_lookup)

namespace Container

variable {n : Nat} {v : Json} {d : Container} {fields : List (String × Json)}

/-- The classes of an object that is read are read out of its own fields. -/
theorem classes_of_read? (h : read? n v = some d) (hfields : v.fields? fieldNames = some fields) :
    Json.required fields "class" MediaClass.ofJson? = some d.mediaClass ∧
      Json.optional fields "child_class" MediaClass.ofJson? = some d.childClass := by
  cases n with
  | zero => cases h
  | succ n =>
    obtain ⟨fields', hfields', hfrom⟩ := Container.readFrom_of_read? h
    obtain rfl := Option.some.inj (hfields.symm.trans hfields')
    exact ⟨hfrom.mediaClass, hfrom.childClass⟩

end Container

namespace Catalog

open ObjectId (normalize)

variable {c c' : Catalog} {id : String} {fields : Dictionary Json} {m : Merge}

/-- Fields that are not refused have changed one node of the catalog, and may have moved it. -/
theorem exists_edited_of_merge (h : c.merge id fields = .ok (c', m)) (hm : m ≠ .missing) :
    ∃ passed node, Edited (normalize id) fields passed node c c' := by
  obtain ⟨way, hway, -⟩ := Fault.bind_eq_ok_iff.1 h
  cases hfollow : c.root.follow? way with
  | none =>
    rw [merge_of_follow?_eq_none fields hway hfollow] at h
    exact absurd (Prod.mk.inj (Except.ok.inj h)).2.symm hm
  | some node =>
    obtain ⟨passed, -, hreplaces⟩ := Container.replaces_of_follow? hfollow (applyFields · fields)
    obtain ⟨_, _, hmerge, -, hplace⟩ := merge_of_follow? hway hfollow
    rw [hmerge] at h
    obtain ⟨rfl, rfl⟩ := Prod.mk.inj (Except.ok.inj h)
    exact ⟨passed, node, _, hreplaces, hplace⟩

/-- A node has the class whose name is among the fields that it has got. -/
theorem mediaClass_applyFields {s : String} (node : Container)
    (h : fields.get? "class" = some (.str s)) : (applyFields node fields).mediaClass = .ofName s :=
  Container.bears_applyFields node (Json.mem_of_lookup h)

end Catalog

namespace MediaClass

open Catalog (Edited applyFields)
open ObjectId (normalize)

/-- A name sets a class, whatever way it takes. -/
structure SetsClass (s : String) (k : MediaClass) : Prop where
  /-- A caller makes an object with the class of a text. -/
  made (id label : String) :
    (Container.new id label (ofText s)).mediaClass = k ∧
      (Container.new id label (parse s)).mediaClass = k
  /-- A backend asks for the top-level container with the class of a text. -/
  ensured (c : Catalog) : ∃ d,
    (c.ensure (ofText s)).1.children[(c.ensure (ofText s)).2]? = some d ∧ d.mediaClass = k
  /-- An object with the class is written with the name. -/
  written (d : Container) (hd : d.mediaClass = k) :
    ∃ fields, d.toJson = .obj fields ∧ fields.lookup "class" = some (.str s)
  /-- An object is read that has the name, at any depth of a message. -/
  object {n : Nat} {v : Json} {fields : List (String × Json)} {d : Container}
    (hfields : v.fields? Container.fieldNames = some fields)
    (hname : fields.lookup "class" = some (.str s)) (hd : Container.read? n v = some d) :
    d.mediaClass = k
  /-- An object is read that has the name for its children. -/
  children {n : Nat} {v : Json} {fields : List (String × Json)} {d : Container}
    (hfields : v.fields? Container.fieldNames = some fields)
    (hname : fields.lookup "child_class" = some (.str s)) (hd : Container.read? n v = some d) :
    d.childClass = some k
  /-- A volume is read that has the name. -/
  volume {v : Json} {fields : List (String × Json)} {volume : Volume}
    (hfields : v.fields? ["label", "class", "mount_point"] = some fields)
    (hname : fields.lookup "class" = some (.str s)) (hvolume : Volume.ofJson? v = some volume) :
    volume.mediaClass = k
  /-- Fields with the name reach a node of a catalog. -/
  merged {c c' : Catalog} {id : String} {fields : Dictionary Json} {m : Catalog.Merge}
    (hname : fields.get? "class" = some (.str s)) (hmerge : c.merge id fields = .ok (c', m))
    (hm : m ≠ .missing) :
    ∃ passed node, Edited (normalize id) fields passed node c c' ∧
      (applyFields node fields).mediaClass = k

theorem ofJson?_str (s : String) : ofJson? (.str s) = some (parse s) :=
  ofJson?_eq_some_iff.2 ⟨s, rfl, rfl⟩

/-- Every name sets the class that the table has for it. -/
theorem setsClass_parse (s : String) : SetsClass s (parse s) where
  made id label := ⟨ofText_eq_parse s, rfl⟩
  ensured c := by
    refine ⟨_, Catalog.getElem?_ensure c (ofText s), ?_⟩
    rw [Catalog.mediaClass_ensured, ofText_eq_parse]
  written d hd := by
    obtain ⟨fields, hfields, hwritten⟩ := d.written_toJson
    refine ⟨fields, hfields, ?_⟩
    rw [hwritten.mediaClass, toJson, hd, name_parse]
  object hfields hname hd := by
    have hclass := (Container.classes_of_read? hd hfields).1
    rw [required_of_lookup hname, ofJson?_str] at hclass
    exact (Option.some.inj hclass).symm
  children hfields hname hd := by
    have hclass := (Container.classes_of_read? hd hfields).2
    rw [optional_of_some hname nofun, ofJson?_str] at hclass
    exact (Option.some.inj hclass).symm
  volume hfields hname hvolume := by
    rw [Volume.ofJson?, hfields, Option.bind_eq_bind, Option.bind_some] at hvolume
    obtain ⟨label, -, hvolume⟩ := Option.bind_eq_some_iff.1 hvolume
    obtain ⟨mediaClass, hclass, hvolume⟩ := Option.bind_eq_some_iff.1 hvolume
    obtain ⟨mountPoint, -, hvolume⟩ := Option.bind_eq_some_iff.1 hvolume
    cases hvolume
    rw [required_of_lookup hname, ofJson?_str] at hclass
    exact (Option.some.inj hclass).symm
  merged hname hmerge hm := by
    obtain ⟨passed, node, hedited⟩ := Catalog.exists_edited_of_merge hmerge hm
    refine ⟨passed, node, hedited, ?_⟩
    rw [Catalog.mediaClass_applyFields node hname, parse_eq_ofName]

/-- Names and classes correspond one to one. Every text is the name of the class that it gives, and
a class is given by its name unless it is kept by a name of the table; the other ways from texts to
classes and back are the same two, in JSON as well. So such classes are told apart by their names,
and a name sets the same class whatever way it takes. -/
theorem names_correspond :
    (∀ s, (parse s).name = s) ∧
    (∀ c : MediaClass, parse c.name = c ↔
      ∀ t, c = other t → ∀ k : MediaClass, k.isOther = false → k.name ≠ t) ∧
    (∀ s, ofText s = parse s ∧ ofName s = parse s) ∧
    (∀ c : MediaClass, c.intoText = c.name ∧ toString c = c.name) ∧
    (∀ c : MediaClass,
      c.toJson = .str c.name ∧ Json.read? c.toJson.text = some (.str c.name)) ∧
    (∀ v c, ofJson? v = some c ↔ ∃ s, v = .str s ∧ c = parse s) ∧
    (∀ c c' : MediaClass, c.Reduced → c'.Reduced → c.name = c'.name → c = c') ∧
    (∀ s, SetsClass s (parse s)) ∧ ∀ c : MediaClass, c.Reduced → SetsClass c.name c := by
  refine ⟨name_parse, fun c => parse_name_iff.trans reduced_iff,
    fun s => ⟨ofText_eq_parse s, (parse_eq_ofName s).symm⟩, fun c => ⟨intoText_eq_name c, rfl⟩,
    fun c => ⟨rfl, read?_text_toJson c⟩, fun v c => ofJson?_eq_some_iff,
    fun c c' => name_injective, setsClass_parse, fun c hc => ?_⟩
  have hset := setsClass_parse c.name
  rwa [parse_name_iff.2 hc] at hset

/-- Songs and streams, where the songs get a class that is not in the table, and move behind. -/
theorem names_correspond_radio :
    (other "container-radio").Reduced ∧ (ofText "container-radio").Reduced ∧
      ofText "container-radio" = other "container-radio" ∧
      ∃ c', ((Catalog.empty.ensure .rootSongs).1.ensure .rootStreams).1.merge "/songs"
          (Dictionary.empty.insert "class" (.str "container-radio")) = .ok (c', .moved 0 1) ∧
        ∃ passed node, Edited (normalize "/songs")
            (Dictionary.empty.insert "class" (.str "container-radio")) passed node
            ((Catalog.empty.ensure .rootSongs).1.ensure .rootStreams).1 c' ∧
          (applyFields node (Dictionary.empty.insert "class" (.str "container-radio"))).mediaClass =
            other "container-radio" := by
  obtain ⟨-, -, hways, -, -, -, hinjective, -, hsets⟩ := names_correspond
  have hradio : (other "container-radio").Reduced := by
    simp [Reduced, known, name]
  have htext : (ofText "container-radio").Reduced := by
    rw [(hways _).1]
    exact reduced_parse _
  obtain ⟨c', hmerge⟩ : ∃ c',
      ((Catalog.empty.ensure .rootSongs).1.ensure .rootStreams).1.merge "/songs"
        (Dictionary.empty.insert "class" (.str "container-radio")) = .ok (c', .moved 0 1) :=
    ⟨_, rfl⟩
  exact ⟨hradio, htext, hinjective _ _ htext hradio rfl, c', hmerge,
    (hsets _ hradio).merged rfl hmerge Catalog.Merge.noConfusion⟩

end MediaClass

end Mediatheque
