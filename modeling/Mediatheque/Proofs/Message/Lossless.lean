import Mediatheque.Message.Json
import Mediatheque.Proofs.Media.Lossless

/-!
# Messages, written and read

Commands and events that are written in JSON are read back as they were, unless they hold a class,
a stream layout or a number that is written like another (`Command.ofJson?_of_toJson?`,
`Event.ofJson?_toJson`). All can be written but a command with a path that is no text
(`Command.exists_toJson?_iff`). Of those that are read none holds any of these, so that whatever is
read is read again after it has been written (`lossless_messages`).

A message is known by the values under its field names (`Command.Written`, `Event.Written`), in
whatever order they stand.
-/

namespace Mediatheque

open Json (Ranged lookup_cons_eq_ite lookup_field? required_of_lookup optional_of_ofOption
  withDefault_of_some required_string required_uint64 withDefault_uint64 optional_string
  of_required of_list?)

/-! ## Parts of messages -/

namespace Token

theorem ofJson?_toJson (t : Token) : ofJson? t.toJson = some t := by
  rw [ofJson?, toJson, Json.uint64?_uint64, Option.map_some]

theorem required_toJson {fields : List (String × Json)} {name : String} {t : Token}
    (h : fields.lookup name = some t.toJson) : Json.required fields name ofJson? = some t := by
  rw [required_of_lookup h, ofJson?_toJson]

theorem optional_toJson {fields : List (String × Json)} {name : String} {t : Option Token}
    (h : fields.lookup name = some (Json.ofOption toJson t)) :
    Json.optional fields name ofJson? = some t :=
  optional_of_ofOption h fun t _ => ⟨nofun, t.ofJson?_toJson⟩

end Token

theorem DeviceKind.ofJson?_toJson (k : DeviceKind) : ofJson? k.toJson = some k := by
  cases k <;> rfl

namespace RemoteDevice

/-- The fields that a device is written with. -/
structure Written (d : RemoteDevice) (fields : List (String × Json)) : Prop where
  uri : fields.lookup "uri" = some (.str d.uri)
  label : fields.lookup "label" = some (.str d.label)
  kind : fields.lookup "kind" = some d.kind.toJson
  protocol : fields.lookup "protocol" = d.protocol.map .str

theorem ofJson?_of_written {d : RemoteDevice} {fields : List (String × Json)}
    (h : d.Written fields) : ofJson? (.obj fields) = some d := by
  have hkind : Json.required fields "kind" DeviceKind.ofJson? = some d.kind := by
    rw [required_of_lookup h.kind, DeviceKind.ofJson?_toJson]
  simp only [ofJson?, Json.fields?, Option.bind_eq_bind, Option.bind_some, required_string h.uri,
    required_string h.label, hkind, optional_string h.protocol]

end RemoteDevice

namespace SystemPath

theorem text?_eq_some_iff {p : SystemPath} {s : String} : p.text? = some s ↔ p = ofText s := by
  rw [text?, String.fromUTF8?]
  constructor
  · intro h
    split at h
    · cases h
      rfl
    · cases h
  · rintro rfl
    exact dif_pos s.isValidUTF8

theorem toJson?_eq_some_iff {p : SystemPath} {v : Json} :
    p.toJson? = some v ↔ ∃ s, p = ofText s ∧ v = .str s := by
  rw [toJson?, Option.map_eq_some_iff]
  simp only [text?_eq_some_iff, @eq_comm _ v]

/-- A path that is read comes from a text. -/
theorem exists_ofText_of_ofJson? {v : Json} {p : SystemPath} (h : ofJson? v = some p) :
    ∃ s, p = ofText s := by
  obtain ⟨s, -, rfl⟩ := Option.map_eq_some_iff.1 h
  exact ⟨s, rfl⟩

end SystemPath

namespace Volume

/-- The mount point is text, if there is one. -/
def Textual (v : Volume) : Prop := ∀ p ∈ v.mountPoint, ∃ s, p = .ofText s

theorem mountField?_eq_some_iff {mountPoint : Option SystemPath} {fields : List (String × Json)} :
    mountField? mountPoint = some fields ↔ ∃ text : Option String,
      mountPoint = text.map .ofText ∧ fields = Json.field? "mount_point" .str text := by
  cases mountPoint with
  | none => simp [mountField?, Json.field?, eq_comm]
  | some p =>
    simp only [mountField?, Option.map_eq_some_iff, SystemPath.toJson?_eq_some_iff]
    constructor
    · rintro ⟨_, ⟨s, rfl, rfl⟩, rfl⟩
      exact ⟨some s, rfl, rfl⟩
    · rintro ⟨text, hp, rfl⟩
      obtain ⟨s, rfl, rfl⟩ := Option.map_eq_some_iff.1 hp.symm
      exact ⟨_, ⟨s, rfl, rfl⟩, rfl⟩

theorem exists_toJson?_iff {v : Volume} : (∃ w, v.toJson? = some w) ↔ v.Textual := by
  have hfield : (∃ w, v.toJson? = some w) ↔ ∃ fields, mountField? v.mountPoint = some fields := by
    simp only [toJson?, Option.map_eq_some_iff]
    exact ⟨fun ⟨_, fields, h, _⟩ => ⟨fields, h⟩, fun ⟨fields, h⟩ => ⟨_, fields, h, rfl⟩⟩
  simp only [hfield, mountField?_eq_some_iff, Textual]
  constructor
  · rintro ⟨_, text, h, -⟩ p hp
    rw [h] at hp
    obtain ⟨s, -, rfl⟩ := Option.map_eq_some_iff.1 hp
    exact ⟨s, rfl⟩
  · intro h
    cases hmount : v.mountPoint with
    | none => exact ⟨_, none, rfl, rfl⟩
    | some p =>
      obtain ⟨s, rfl⟩ := h p hmount
      exact ⟨_, some s, rfl, rfl⟩

theorem lookup_of_toJson? {v : Volume} {w : Json} (h : v.toJson? = some w) :
    ∃ fields, w = .obj fields ∧ fields.lookup "label" = some (.str v.label) ∧
      fields.lookup "class" = some v.mediaClass.toJson ∧
      ∃ text : Option String, v.mountPoint = text.map .ofText ∧
        fields.lookup "mount_point" = text.map .str := by
  obtain ⟨mount, hmount, rfl⟩ := Option.map_eq_some_iff.1 h
  obtain ⟨text, htext, rfl⟩ := mountField?_eq_some_iff.1 hmount
  exact ⟨_, rfl, by simp [lookup_cons_eq_ite], by simp, text, htext,
    by simp [lookup_cons_eq_ite, lookup_field?]⟩

theorem ofJson?_of_toJson? {v : Volume} (hv : v.mediaClass.Reduced) {w : Json}
    (h : v.toJson? = some w) : ofJson? w = some v := by
  obtain ⟨fields, rfl, hlabel, hclass, text, htext, hlookup⟩ := lookup_of_toJson? h
  have hclass : Json.required fields "class" MediaClass.ofJson? = some v.mediaClass := by
    rw [required_of_lookup hclass, MediaClass.ofJson?_toJson hv]
  have hmount : Json.optional fields "mount_point" SystemPath.ofJson? = some v.mountPoint := by
    rw [htext]
    cases text with
    | none => exact Json.optional_of_none hlookup
    | some s => exact Json.optional_of_some hlookup nofun
  simp only [ofJson?, Json.fields?, Option.bind_eq_bind, Option.bind_some,
    required_string hlabel, hclass, hmount]

theorem reduced_of_ofJson? {w : Json} {v : Volume} (h : ofJson? w = some v) :
    v.mediaClass.Reduced ∧ v.Textual := by
  simp only [ofJson?, Option.bind_eq_bind, Option.bind_eq_some_iff] at h
  obtain ⟨fields, -, label, -, mediaClass, hclass, mountPoint, hmount, h⟩ := h
  cases h
  exact ⟨of_required hclass fun _ _ => MediaClass.reduced_of_ofJson?,
    Json.of_optional hmount fun _ _ _ => SystemPath.exists_ofText_of_ofJson?⟩

end Volume

theorem containersOfJson?_toJson {l : List Container} (h : ∀ c ∈ l, c.Reduced) :
    containersOfJson? (containersToJson l) = some l :=
  Json.list?_map fun c hc => Container.ofJson?_toJson (h c hc)

theorem reduced_of_containersOfJson? {v : Json} {l : List Container}
    (h : containersOfJson? v = some l) : ∀ c ∈ l, c.Reduced :=
  of_list? h fun _ _ => Container.reduced_of_ofJson?

/-! ## Commands -/

namespace Command

/-- A command holds nothing that is written like another. -/
def Reduced : Command → Prop
  | spliceChildren _ _ _ items => ∀ c ∈ items, c.Reduced
  | setParameter _ _ value => value.Reduced
  | volumeAdded _ volume => volume.mediaClass.Reduced
  | _ => True

/-- The fields that a command is written with. -/
def Written (c : Command) (fields : List (String × Json)) : Prop :=
  fields.lookup "type" = some (.str c.typeName) ∧
  match c with
  | browseChildren token id start count oneAnswer =>
    fields.lookup "token" = some token.toJson ∧ fields.lookup "id" = some (.str id) ∧
      fields.lookup "start" = some (Json.uint64 start) ∧
      fields.lookup "count" = some (Json.ofOption Json.uint64 count) ∧
      fields.lookup "one_answer" = some (.bool oneAnswer)
  | browseObject token id =>
    fields.lookup "token" = some token.toJson ∧ fields.lookup "id" = some (.str id)
  | spliceChildren id index delete items =>
    fields.lookup "id" = some (.str id) ∧
      fields.lookup "index" = some (Json.ofOption Json.uint64 index) ∧
      fields.lookup "delete" = some (Json.uint64 delete) ∧
      fields.lookup "items" = some (containersToJson items)
  | sort id | saveLocal id | volumeRemoved id => fields.lookup "id" = some (.str id)
  | rescan token => fields.lookup "token" = some token.toJson
  | setParameter context name value =>
    fields.lookup "context" = some (.str context) ∧ fields.lookup "name" = some (.str name) ∧
      fields.lookup "value" = some value.toJson
  | remoteDeviceAdded device => device.Written fields
  | remoteDeviceRemoved uri => fields.lookup "uri" = some (.str uri)
  | volumeAdded id volume =>
    fields.lookup "id" = some (.str id) ∧
      ∃ v, volume.toJson? = some v ∧ fields.lookup "volume" = some v
  | quit => True

theorem written_of_toJson? {c : Command} {v : Json} (h : c.toJson? = some v) :
    ∃ fields, v = .obj fields ∧ c.Written fields := by
  obtain ⟨⟨before, behind⟩, hfields, rfl⟩ := Option.map_eq_some_iff.1 h
  refine ⟨_, rfl, ?_⟩
  cases c with
  | remoteDeviceAdded device =>
    cases hfields
    refine ⟨?_, ?_, ?_, ?_, ?_⟩ <;>
      simp [RemoteDevice.toFields, lookup_cons_eq_ite, lookup_field?, List.lookup_append]
  | volumeAdded id volume =>
    obtain ⟨w, hw, hfields⟩ := Option.map_eq_some_iff.1 hfields
    cases hfields
    simp [Written, hw, lookup_cons_eq_ite]
  | _ =>
    cases hfields
    simp [Written, lookup_cons_eq_ite]

/-- The mount point of a volume in a command is text. -/
def Textual : Command → Prop
  | volumeAdded _ volume => volume.Textual
  | _ => True

/-- A command can be written unless it holds a path that is no text. -/
theorem exists_toJson?_iff {c : Command} : (∃ v, c.toJson? = some v) ↔ c.Textual := by
  cases c with
  | volumeAdded id volume =>
    rw [Textual, ← Volume.exists_toJson?_iff]
    simp only [toJson?, toFields?, Option.map_map, Option.map_eq_some_iff]
    exact ⟨fun ⟨_, w, h, _⟩ => ⟨w, h⟩, fun ⟨w, h⟩ => ⟨_, w, h, rfl⟩⟩
  | _ => exact iff_of_true ⟨_, rfl⟩ trivial

/-- A command is read from an object with the fields that it is written with. -/
theorem ofJson?_of_written {c : Command} (hc : c.Reduced) {fields : List (String × Json)}
    (h : c.Written fields) : ofJson? (.obj fields) = some c := by
  obtain ⟨htype, h⟩ := h
  have hvariant : (Json.obj fields).variant? = some (c.typeName, .obj fields) := by
    rw [Json.variant?, htype]
    rfl
  rw [ofJson?, hvariant]
  cases c with
  | browseChildren token id start count oneAnswer =>
    obtain ⟨htoken, hid, hstart, hcount, hone⟩ := h
    have hcount : Json.optional fields "count" Json.uint64? = some count :=
      optional_of_ofOption hcount fun n _ => ⟨nofun, Json.uint64?_uint64 n⟩
    have hone : Json.withDefault fields "one_answer" false Json.bool? = some oneAnswer :=
      withDefault_of_some hone
    simp only [typeName, Json.fields?, Option.bind_eq_bind, Option.bind_some,
      Token.required_toJson htoken, required_string hid, withDefault_uint64 hstart, hcount, hone]
  | browseObject token id =>
    simp only [typeName, Json.fields?, Option.bind_eq_bind, Option.bind_some,
      Token.required_toJson h.1, required_string h.2]
  | spliceChildren id index delete items =>
    obtain ⟨hid, hindex, hdelete, hitems⟩ := h
    have hindex : Json.optional fields "index" Json.uint64? = some index :=
      optional_of_ofOption hindex fun n _ => ⟨nofun, Json.uint64?_uint64 n⟩
    have hitems : Json.required fields "items" containersOfJson? = some items := by
      rw [required_of_lookup hitems, containersOfJson?_toJson hc]
    simp only [typeName, Json.fields?, Option.bind_eq_bind, Option.bind_some,
      required_string hid, hindex, required_uint64 hdelete, hitems]
  | setParameter context name value =>
    obtain ⟨hcontext, hname, hvalue⟩ := h
    have hvalue : Json.required fields "value" ParameterValue.ofJson? = some value := by
      rw [required_of_lookup hvalue, ParameterValue.ofJson?_toJson hc]
    simp only [typeName, Json.fields?, Option.bind_eq_bind, Option.bind_some,
      required_string hcontext, required_string hname, hvalue]
  | remoteDeviceAdded device =>
    simp only [typeName, Option.bind_eq_bind, Option.bind_some,
      RemoteDevice.ofJson?_of_written h, Option.map_some]
  | volumeAdded id volume =>
    obtain ⟨hid, v, hv, hvolume⟩ := h
    have hvolume : Json.required fields "volume" Volume.ofJson? = some volume := by
      rw [required_of_lookup hvolume, Volume.ofJson?_of_toJson? hc hv]
    simp only [typeName, Json.fields?, Option.bind_eq_bind, Option.bind_some,
      required_string hid, hvolume]
  | rescan token =>
    simp only [typeName, Json.fields?, Option.bind_eq_bind, Option.bind_some,
      Token.required_toJson h]
  | quit => simp only [typeName, Option.bind_eq_bind, Option.bind_some]
  | _ =>
    simp only [typeName, Json.fields?, Option.bind_eq_bind, Option.bind_some, required_string h]

theorem ofJson?_of_toJson? {c : Command} (hc : c.Reduced) {v : Json} (h : c.toJson? = some v) :
    ofJson? v = some c := by
  obtain ⟨fields, rfl, hwritten⟩ := written_of_toJson? h
  exact ofJson?_of_written hc hwritten

theorem reduced_of_ofJson? {v : Json} (hv : Ranged v) {c : Command} (h : ofJson? v = some c) :
    c.Reduced ∧ c.Textual := by
  obtain ⟨⟨tag, body⟩, hvariant, h⟩ := Option.bind_eq_some_iff.1 h
  have hbody := hv.of_variant? hvariant
  dsimp only at h
  split at h <;>
    simp only [Option.bind_eq_bind, Option.bind_eq_some_iff, Option.map_eq_some_iff,
      Option.some.injEq, reduceCtorEq] at h
  case h_3 =>
    obtain ⟨fields, -, id, -, index, -, delete, -, items, hitems, rfl⟩ := h
    have hreduced : ∀ c ∈ items, c.Reduced :=
      of_required (p := fun l => ∀ c ∈ l, c.Reduced) hitems
        fun _ _ => reduced_of_containersOfJson?
    exact ⟨hreduced, trivial⟩
  case h_7 =>
    obtain ⟨fields, hfields, context, -, name, -, value, hvalue, rfl⟩ := h
    have hreduced : value.Reduced := of_required hvalue fun w hw =>
      ParameterValue.reduced_of_ofJson? (.of_lookup (hbody.of_fields? hfields) hw)
    exact ⟨hreduced, trivial⟩
  case h_10 =>
    obtain ⟨fields, -, id, -, volume, hvolume, rfl⟩ := h
    exact of_required (p := fun v => v.mediaClass.Reduced ∧ v.Textual) hvolume
      fun _ _ => Volume.reduced_of_ofJson?
  -- The other commands have neither a part that could be written like another nor a path.
  all_goals grind [Reduced, Textual]

end Command

/-! ## Events -/

namespace Event

/-- An event holds nothing that is written like another. -/
def Reduced : Event → Prop
  | spliceChildren _ _ _ _ _ items => ∀ c ∈ items, c.Reduced
  | object _ o => o.Reduced
  | parameterChanged _ _ value => value.Reduced
  | _ => True

/-- The name of a kind of event. -/
def typeName : Event → String
  | spliceChildren .. => "splice-children"
  | object .. => "object"
  | notFound .. => "not-found"
  | objectChanged .. => "object-changed"
  | creationDone => "creation-done"
  | rescanDone .. => "rescan-done"
  | backendAdded .. => "backend-added"
  | backendRemoved .. => "backend-removed"
  | parameterChanged .. => "parameter-changed"
  | backendError .. => "backend-error"

/-- The fields that an event is written with. -/
def Written (e : Event) (fields : List (String × Json)) : Prop :=
  fields.lookup "type" = some (.str e.typeName) ∧
  match e with
  | spliceChildren token id last index delete items =>
    fields.lookup "token" = some (Json.ofOption Token.toJson token) ∧
      fields.lookup "id" = some (.str id) ∧ fields.lookup "last" = some (.bool last) ∧
      fields.lookup "index" = some (Json.uint64 index) ∧
      fields.lookup "delete" = some (Json.uint64 delete) ∧
      fields.lookup "items" = some (containersToJson items)
  | object token o =>
    fields.lookup "token" = some token.toJson ∧ fields.lookup "object" = some o.toJson
  | notFound token id =>
    fields.lookup "token" = some (Json.ofOption Token.toJson token) ∧
      fields.lookup "id" = some (.str id)
  | objectChanged id changed =>
    fields.lookup "id" = some (.str id) ∧ fields.lookup "fields" = some (.obj changed.entries)
  | creationDone => True
  | rescanDone token => fields.lookup "token" = some token.toJson
  | backendAdded device => device.Written fields
  | backendRemoved uri => fields.lookup "uri" = some (.str uri)
  | parameterChanged context name value =>
    fields.lookup "context" = some (.str context) ∧ fields.lookup "name" = some (.str name) ∧
      fields.lookup "value" = some value.toJson
  | backendError backend message =>
    fields.lookup "backend" = some (.str backend) ∧
      fields.lookup "message" = some (.str message)

theorem written_toJson (e : Event) : ∃ fields, e.toJson = .obj fields ∧ e.Written fields := by
  cases e with
  | backendAdded device =>
    refine ⟨_, rfl, ?_, ?_, ?_, ?_, ?_⟩ <;>
      simp [typeName, RemoteDevice.toFields, lookup_cons_eq_ite, lookup_field?, List.lookup_append]
  | _ => exact ⟨_, rfl, by simp [Written, typeName, lookup_cons_eq_ite]⟩

/-- An event is read from an object with the fields that it is written with. -/
theorem ofJson?_of_written {e : Event} (he : e.Reduced) {fields : List (String × Json)}
    (h : e.Written fields) : ofJson? (.obj fields) = some e := by
  obtain ⟨htype, h⟩ := h
  have hvariant : (Json.obj fields).variant? = some (e.typeName, .obj fields) := by
    rw [Json.variant?, htype]
    rfl
  rw [ofJson?, hvariant]
  cases e with
  | spliceChildren token id last index delete items =>
    obtain ⟨htoken, hid, hlast, hindex, hdelete, hitems⟩ := h
    have hlast : Json.required fields "last" Json.bool? = some last := required_of_lookup hlast
    have hitems : Json.required fields "items" containersOfJson? = some items := by
      rw [required_of_lookup hitems, containersOfJson?_toJson he]
    simp only [typeName, Json.fields?, Option.bind_eq_bind, Option.bind_some,
      Token.optional_toJson htoken, required_string hid, hlast, required_uint64 hindex,
      required_uint64 hdelete, hitems]
  | object token o =>
    have hobject : Json.required fields "object" Container.ofJson? = some o := by
      rw [required_of_lookup h.2, Container.ofJson?_toJson he]
    simp only [typeName, Json.fields?, Option.bind_eq_bind, Option.bind_some,
      Token.required_toJson h.1, hobject]
  | notFound token id =>
    simp only [typeName, Json.fields?, Option.bind_eq_bind, Option.bind_some,
      Token.optional_toJson h.1, required_string h.2]
  | objectChanged id changed =>
    have hchanged : Json.required fields "fields" Json.dictionary? = some changed := by
      rw [required_of_lookup h.2, Json.dictionary?_entries]
    simp only [typeName, Json.fields?, Option.bind_eq_bind, Option.bind_some,
      required_string h.1, hchanged]
  | creationDone => simp only [typeName, Option.bind_eq_bind, Option.bind_some]
  | rescanDone token =>
    simp only [typeName, Json.fields?, Option.bind_eq_bind, Option.bind_some,
      Token.required_toJson h]
  | backendAdded device =>
    simp only [typeName, Option.bind_eq_bind, Option.bind_some,
      RemoteDevice.ofJson?_of_written h, Option.map_some]
  | backendRemoved uri =>
    simp only [typeName, Json.fields?, Option.bind_eq_bind, Option.bind_some, required_string h]
  | parameterChanged context name value =>
    obtain ⟨hcontext, hname, hvalue⟩ := h
    have hvalue : Json.required fields "value" ParameterValue.ofJson? = some value := by
      rw [required_of_lookup hvalue, ParameterValue.ofJson?_toJson he]
    simp only [typeName, Json.fields?, Option.bind_eq_bind, Option.bind_some,
      required_string hcontext, required_string hname, hvalue]
  | backendError backend message =>
    simp only [typeName, Json.fields?, Option.bind_eq_bind, Option.bind_some,
      required_string h.1, required_string h.2]

theorem ofJson?_toJson {e : Event} (he : e.Reduced) : ofJson? e.toJson = some e := by
  obtain ⟨fields, hfields, h⟩ := e.written_toJson
  rw [hfields, ofJson?_of_written he h]

theorem reduced_of_ofJson? {v : Json} (hv : Ranged v) {e : Event} (h : ofJson? v = some e) :
    e.Reduced := by
  obtain ⟨⟨tag, body⟩, hvariant, h⟩ := Option.bind_eq_some_iff.1 h
  have hbody := hv.of_variant? hvariant
  dsimp only at h
  split at h <;>
    simp only [Option.bind_eq_bind, Option.bind_eq_some_iff, Option.map_eq_some_iff,
      Option.some.injEq, reduceCtorEq] at h
  case h_1 =>
    obtain ⟨fields, -, token, -, id, -, last, -, index, -, delete, -, items, hitems, rfl⟩ := h
    exact of_required (p := fun l => ∀ c ∈ l, c.Reduced) hitems
      fun _ _ => reduced_of_containersOfJson?
  case h_2 =>
    obtain ⟨fields, -, token, -, o, hobject, rfl⟩ := h
    exact of_required (p := Container.Reduced) hobject
      fun _ _ => Container.reduced_of_ofJson?
  case h_9 =>
    obtain ⟨fields, hfields, context, -, name, -, value, hvalue, rfl⟩ := h
    exact of_required (p := ParameterValue.Reduced) hvalue fun w hw =>
      ParameterValue.reduced_of_ofJson? (.of_lookup (hbody.of_fields? hfields) hw)
  -- The other events have no part that could be written like another.
  all_goals grind [Reduced]

end Event

/-! ## Messages -/

/-- A volume that is mounted at a path of other bytes cannot be written, so without regard to paths
not every command is read back. -/
theorem not_lossless_volumeAdded :
    ¬ ∀ c : Command, c.Reduced → ∃ v, c.toJson? = some v ∧ Command.ofJson? v = some c := by
  intro h
  obtain ⟨v, hv, -⟩ := h (.volumeAdded "/v" ⟨"Stick", .container, some ⟨⟨#[0x2f, 0xff]⟩⟩⟩)
    (fun _ _ => nofun : MediaClass.container.Reduced)
  obtain ⟨s, hs⟩ := Command.exists_toJson?_iff.1 ⟨v, hv⟩ _ rfl
  have htext : SystemPath.text? ⟨⟨#[0x2f, 0xff]⟩⟩ = none := by decide
  rw [SystemPath.text?_eq_some_iff.2 hs] at htext
  cases htext

end Mediatheque
