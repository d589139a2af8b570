import CloudEvents.Proofs.Merging

/-!
# Written forms

What is written is read back, message by message from the inside out. A field that is left out on
writing finds on reading whatever is held, so the general statements say what written records leave
of a message that holds something already (`overriddenBy`), and the written form is read back where
nothing is held.

Lengths are the one thing that may stand in the way: a record may announce at most `maxLength`
bytes. A bound on the outermost encoding bounds every length inside it, so the statements ask for
nothing else.

## Main definitions

* `EventMessage.ofEvent` — the message that says what an event says
* `EventMessage.overriddenBy`, `EventData.overridden`, `StructuredData.overriddenBy` — one after
  another
* `Event.records` — the records of an event

## Main results

* `Varint.toInt64_ofInt`, `Varint.toInt32_ofInt` — integers in their two's complement
* `Timestamp.merge_encode`, `StructuredData.merge_encode`, `AttributeMessage.merge_encode`
* `EntryMessage.parse_entryBody` — an entry of the attribute map
* `EventMessage.foldlM_records_of_held` — an event, read over what a message holds
* `EventMessage.parse_records`, `EventMessage.parse_encode` — an event, its entries in any order
-/

namespace CloudEvents

variable {depth : Nat}

/-! ### Integers -/

namespace Varint

private theorem cast_size_pos : (0 : Int) < (UInt64.size : Nat) := by
  simp only [UInt64.size]
  omega

theorem natCast_ofInt (i : Int) : (ofInt i : Int) = i % UInt64.size :=
  Int.toNat_of_nonneg (Int.emod_nonneg i (Int.ne_of_gt cast_size_pos))

theorem ofInt_lt (i : Int) : ofInt i < UInt64.size := by
  have h := Int.emod_lt_of_pos i cast_size_pos
  rw [← natCast_ofInt] at h
  exact Int.ofNat_lt.mp h

theorem toInt64_ofInt {i : Int} (h : -9223372036854775808 ≤ i) (h' : i < 9223372036854775808) :
    toInt64 (ofInt i) = i := by
  show Int.bmod (ofInt i) UInt64.size = i
  rw [natCast_ofInt, Int.emod_bmod]
  refine Int.bmod_eq_of_le_mul_two ?_ ?_ <;> simp only [UInt64.size] <;> omega

/-- The low half of the 64 bits is the two's complement of an integer that 32 bits hold. -/
theorem toInt32_ofInt {i : Int} (h : -2147483648 ≤ i) (h' : i < 2147483648) :
    toInt32 (ofInt i) = i := by
  have hdvd : ((UInt32.size : Nat) : Int) ∣ (UInt64.size : Nat) := by decide
  show Int.bmod (ofInt i) UInt32.size = i
  rw [natCast_ofInt, ← Int.emod_bmod, Int.emod_emod_of_dvd i hdvd, Int.emod_bmod]
  refine Int.bmod_eq_of_le_mul_two ?_ ?_ <;> simp only [UInt32.size] <;> omega

end Varint

/-! ### Lengths -/

theorem Varint.encode_ne_nil (n : Nat) : encode n ≠ [] := by
  rw [encode]
  split <;> exact List.cons_ne_nil _ _

theorem Record.encode_ne_nil (r : Record) : r.encode ≠ [] :=
  List.append_ne_nil_of_left_ne_nil (Varint.encode_ne_nil _) _

theorem length_le_encode (number : Nat) (bytes : Bytes) :
    bytes.length ≤ (Record.encode ⟨number, .delimited bytes⟩).length := by
  simp only [Record.encode, Payload.encode, List.length_append]
  omega

theorem length_encode_le {rs : List Record} {r : Record} (h : r ∈ rs) :
    r.encode.length ≤ (encodeRecords rs).length := by
  obtain ⟨front, back, rfl⟩ := List.append_of_mem h
  simp only [encodeRecords, List.flatMap_append, List.flatMap_cons, List.length_append]
  omega

/-- All fields of the format have numbers below nine. -/
theorem Record.fits_of_number {number : Nat} {payload : Payload} (hpos : 0 < number)
    (hle : number ≤ 8) (h : payload.Fits depth) : Record.Fits depth ⟨number, payload⟩ := by
  have := payload.wireType_lt
  refine ⟨hpos, ?_, h⟩
  simp only [UInt32.size]
  omega

/-- A record inside a written form that is not too long fits. -/
theorem Record.fits_of_mem {rs : List Record} {number : Nat} {bytes : Bytes}
    (hlen : (encodeRecords rs).length ≤ maxLength) (h : ⟨number, .delimited bytes⟩ ∈ rs)
    (hpos : 0 < number) (hle : number ≤ 8) : Record.Fits depth ⟨number, .delimited bytes⟩ :=
  Record.fits_of_number hpos hle
    (Nat.le_trans (length_le_encode number bytes) (Nat.le_trans (length_encode_le h) hlen))

/-! ### Embedded messages -/

theorem Timestamp.merge_encode {t : Timestamp} (h : t.Valid) :
    Timestamp.merge depth { seconds := 0 } t.encode = some t := by
  have hseconds : Varint.toInt64 (Varint.ofInt t.seconds) = t.seconds := by
    have := h.minSeconds_le
    have := h.le_maxSeconds
    simp only [minSeconds, maxSeconds] at *
    exact Varint.toInt64_ofInt (by omega) (by omega)
  have hnanos : Varint.toInt32 (Varint.ofInt t.nanos) = t.nanos := by
    have := h.nanos_nonneg
    have := h.nanos_lt
    simp only [nanosPerSecond] at *
    exact Varint.toInt32_ofInt (by omega) (by omega)
  have hfits : ∀ r ∈ t.records, r.Fits depth := by
    intro r hr
    simp only [records, List.mem_append, List.mem_ite_nil_left, List.mem_singleton] at hr
    obtain ⟨-, rfl⟩ | ⟨-, rfl⟩ := hr <;>
      exact Record.fits_of_number (by decide) (by decide) (Varint.ofInt_lt _)
  rw [merge, encode, mergeMessage_encodeRecords hfits]
  obtain ⟨seconds, nanos⟩ := t
  by_cases hs : seconds = 0 <;> by_cases hn : nanos = 0 <;> simp_all [records, apply]

namespace StructuredData

/-- A typed message with the fields of another one, as far as that one has any. -/
def overriddenBy (held s : StructuredData) : StructuredData where
  typeUrl := if s.typeUrl = "" then held.typeUrl else s.typeUrl
  value := if s.value = [] then held.value else s.value

@[simp] theorem overriddenBy_empty (s : StructuredData) :
    overriddenBy { typeUrl := "" } s = s := by
  obtain ⟨typeUrl, value⟩ := s
  by_cases ht : typeUrl = "" <;> by_cases hv : value = [] <;> simp [overriddenBy, ht, hv]

/-- The records of a typed message set the fields that it has, however long they are. -/
theorem foldlM_records_of_held (held s : StructuredData) :
    s.records.foldlM apply held = some (held.overriddenBy s) := by
  obtain ⟨typeUrl, value⟩ := s
  by_cases ht : typeUrl = "" <;> by_cases hv : value = [] <;>
    simp [records, apply, overriddenBy, ht, hv, Bytes.toText?_ofText]

theorem foldlM_records (s : StructuredData) :
    s.records.foldlM apply { typeUrl := "" } = some s := by
  rw [foldlM_records_of_held, overriddenBy_empty]

/-- What is merged into a typed message overrides it field by field. -/
theorem merge_encode {s : StructuredData} (h : s.encode.length ≤ maxLength)
    (held : StructuredData) : held.merge depth s.encode = some (held.overriddenBy s) := by
  have hfits : ∀ r ∈ s.records, r.Fits depth := by
    intro r hr
    have hmem := hr
    simp only [records, List.mem_append, List.mem_ite_nil_left, List.mem_singleton] at hmem
    obtain ⟨-, rfl⟩ | ⟨-, rfl⟩ := hmem <;>
      exact Record.fits_of_mem h hr (by decide) (by decide)
  rw [merge, encode, mergeMessage_encodeRecords hfits]
  exact foldlM_records_of_held held s

end StructuredData

/-! ### Attribute values and entries -/

/-- The record of a value gives the value back, with its kind, to a message that holds none. -/
theorem AttributeMessage.apply_record {m : AttributeMessage} (hm : m.value = none)
    {v : AttributeValue} (hv : v.Valid) :
    m.apply depth v.record = some { m with value := some v } := by
  cases v with
  | boolean b => cases b <;> rfl
  | integer i =>
    have hi : Varint.toInt32 (Varint.ofInt i) = i :=
      Varint.toInt32_ofInt hv.1 (Int.lt_add_one_of_le hv.2)
    simp [apply, AttributeValue.record, AttributeKind.fieldNumber, hi]
  | string s | uri s | uriRef s =>
    simp [apply, AttributeValue.record, AttributeKind.fieldNumber, Bytes.toText?_ofText]
  | bytes b => rfl
  | timestamp t =>
    simp [apply, AttributeValue.record, AttributeKind.fieldNumber, heldTimestamp, hm,
      Timestamp.merge_encode hv]

theorem AttributeValue.fits_record {v : AttributeValue}
    (h : (AttributeMessage.encode { value := some v }).length ≤ maxLength) :
    v.record.Fits depth := by
  have hmem : v.record ∈ AttributeMessage.records { value := some v } := List.mem_singleton_self _
  cases v with
  | boolean b =>
    refine Record.fits_of_number (by decide) (by decide) ?_
    cases b <;> simp [Payload.Fits, UInt64.size]
  | integer i => exact Record.fits_of_number (by decide) (by decide) (Varint.ofInt_lt i)
  | _ => exact Record.fits_of_mem h hmem (by decide) (by decide)

/-- The written form of a value holds its one record. -/
theorem AttributeMessage.merge_encode {v : AttributeValue} (hv : v.Valid)
    (h : (AttributeMessage.encode { value := some v }).length ≤ maxLength) :
    AttributeMessage.merge depth {} (AttributeMessage.encode { value := some v })
      = some { value := some v } := by
  have hrecords : AttributeMessage.records { value := some v } = [v.record] := rfl
  have hfits : ∀ r ∈ [v.record], r.Fits depth :=
    List.forall_mem_singleton.mpr (AttributeValue.fits_record h)
  rw [merge, encode, hrecords, mergeMessage_encodeRecords hfits, List.foldlM_cons,
    apply_record rfl hv]
  rfl

/-- The body of an entry, as it is written. -/
def entryBody (name : String) (value : AttributeMessage) : Bytes :=
  encodeRecords [⟨1, .delimited (Bytes.ofText name)⟩, ⟨2, .delimited value.encode⟩]

/-- The fields of an entry with a value of these bytes. -/
def entryFields (name : String) (value : Bytes) : List Record :=
  [⟨1, .delimited (Bytes.ofText name)⟩, ⟨2, .delimited value⟩]

theorem fits_entryFields {name : String} {value : Bytes}
    (h : (encodeRecords (entryFields name value)).length ≤ maxLength) :
    ∀ r ∈ entryFields name value, r.Fits depth := by
  intro r hr
  have hmem := hr
  simp only [entryFields, List.mem_cons, List.not_mem_nil, or_false] at hmem
  obtain rfl | rfl := hmem <;> exact Record.fits_of_mem h hr (by decide) (by decide)

/-- The value inside an entry is not longer than the entry. -/
theorem length_value_le (name : String) (value : Bytes) :
    value.length ≤ (encodeRecords (entryFields name value)).length := by
  refine Nat.le_trans (length_le_encode 2 _) (length_encode_le ?_)
  exact List.mem_cons_of_mem _ List.mem_cons_self

/-- An entry is read as its name and whatever its value is read as. -/
theorem EntryMessage.parse_entryFields {name : String} {value : Bytes} {m : AttributeMessage}
    (hvalue : AttributeMessage.merge (depth - 1) {} value = some m)
    (h : (encodeRecords (entryFields name value)).length ≤ maxLength) :
    EntryMessage.parse depth (encodeRecords (entryFields name value))
      = some { key := name, value := m } := by
  rw [parse, mergeMessage_encodeRecords (fits_entryFields h)]
  simp [entryFields, apply, Bytes.toText?_ofText, hvalue]

theorem EntryMessage.parse_entryBody {name : String} {v : AttributeValue} (hv : v.Valid)
    (h : (entryBody name { value := some v }).length ≤ maxLength) :
    EntryMessage.parse depth (entryBody name { value := some v })
      = some { key := name, value := { value := some v } } := by
  have hlength := Nat.le_trans (length_value_le name _) h
  exact parse_entryFields (AttributeMessage.merge_encode hv hlength) h

/-! ### Events -/

/-- The payload that remains when one comes after another: the later one, except that a typed
message is merged into a typed message. -/
def EventData.overridden : Option EventData → Option EventData → Option EventData
  | held, none => held
  | some (structured held), some (structured s) => some (structured (held.overriddenBy s))
  | _, some d => some d

@[simp] theorem EventData.overridden_none_left (data : Option EventData) :
    overridden none data = data := by
  rcases data with _ | _ | _ | _ <;> rfl

namespace EventMessage

/-- The message that says what an event says, its entries in the order of the attributes. -/
def ofEvent (e : Event) : EventMessage where
  id := e.id
  source := e.source
  specVersion := e.specVersion
  type := e.type
  attributes := e.attributes.map fun entry => (entry.1, { value := some entry.2 })
  data := e.data

@[simp] theorem required_ofEvent (e : Event) (f : RequiredField) :
    (ofEvent e).required f = e.required f := by
  cases f <;> rfl

@[simp] theorem names_ofEvent (e : Event) :
    (ofEvent e).attributes.names = e.attributes.names := by
  simp [ofEvent, NameMap.names]

/-- The fields of an event, written over those of a message: texts are replaced, entries replace
those of their names, and a typed payload overrides another one field by field. -/
def overriddenBy (m : EventMessage) (e : Event) : EventMessage :=
  { m with
    id := e.id
    source := e.source
    specVersion := e.specVersion
    type := e.type
    attributes := m.attributes.overriddenBy (ofEvent e).attributes
    data := EventData.overridden m.data e.data }

theorem overriddenBy_attributes {e : Event} (h : e.attributes.names.Nodup) :
    NameMap.overriddenBy [] (ofEvent e).attributes = (ofEvent e).attributes :=
  NameMap.overriddenBy_eq_append (m := []) (names_ofEvent e ▸ h)

/-- Where nothing is held, what the event says is all there is. -/
theorem overriddenBy_empty {e : Event} (h : e.attributes.names.Nodup) :
    overriddenBy {} e = ofEvent e := by
  rw [overriddenBy, overriddenBy_attributes h, EventData.overridden_none_left]
  rfl

/-- Names that are set once each are set in what is held at first. -/
theorem assignEntries_eq_overriddenBy (held : NameMap AttributeMessage)
    {entries : NameMap AttributeValue} (h : entries.names.Nodup) :
    assignEntries held entries
      = held.overriddenBy (entries.map fun entry =>
          (entry.1, ((held.lookup entry.1).getD {}).assign entry.2)) := by
  induction entries generalizing held with
  | nil => rfl
  | cons entry rest ih =>
    obtain ⟨hnew, hrest⟩ := List.nodup_cons.mp h
    refine (ih _ hrest).trans ?_
    rw [List.map_cons, NameMap.overriddenBy_cons]
    refine congrArg _ (List.map_congr_left fun other hother => ?_)
    have hne : other.1 ≠ entry.1 := fun heq => hnew (heq ▸ List.mem_map_of_mem hother)
    rw [NameMap.lookup_insert, if_neg hne]

/-- Filling a message with an event leaves exactly what the event says, whatever was there. -/
theorem fill_eq_ofEvent {e : Event} (h : e.attributes.names.Nodup) (m : EventMessage) :
    m.fill e = ofEvent e := by
  have hattributes : assignEntries [] e.attributes = (ofEvent e).attributes :=
    (assignEntries_eq_overriddenBy [] h).trans (overriddenBy_attributes h)
  rw [fill, assign, clear, hattributes, Option.or_none]
  rfl

end EventMessage

/-! ### The records of an event -/

/-- The record of an attribute: its name and its value. -/
def attributeRecord (entry : String × AttributeValue) : Record :=
  entryRecord (entry.1, { value := some entry.2 })

/-- The record of a required attribute, empty or not. -/
def Event.requiredRecord (e : Event) (field : RequiredField) : Record :=
  ⟨field.fieldNumber, .delimited (Bytes.ofText (e.required field))⟩

/-- The records of an event of which these required attributes are written. -/
def Event.records (e : Event) (written : List RequiredField) : List Record :=
  written.map e.requiredRecord ++ e.attributes.map attributeRecord
    ++ (e.data.map EventData.record).toList

/-- The texts of an event have nothing to do with its attributes and its payload. -/
theorem Event.requiredRecord_with (e : Event) (entries : NameMap AttributeValue)
    (data : Option EventData) :
    { e with attributes := entries, data }.requiredRecord = e.requiredRecord := by
  funext f
  cases f <;> rfl

/-- The required attributes that are not empty, in their order. -/
def Event.present (e : Event) : List RequiredField :=
  RequiredField.all.filter fun f => e.required f ≠ ""

/-- A message is written without its empty texts. -/
theorem EventMessage.records_ofEvent (e : Event) : (ofEvent e).records = e.records e.present := by
  have htext (f : RequiredField) : textRecords f (e.required f)
      = ([f].filter fun f => e.required f ≠ "").map e.requiredRecord := by
    by_cases hempty : e.required f = "" <;> simp [textRecords, hempty, Event.requiredRecord]
  have htexts : textRecords .id e.id ++ textRecords .source e.source
      ++ textRecords .specVersion e.specVersion ++ textRecords .type e.type
        = e.present.map e.requiredRecord := by
    have hall : RequiredField.all = [.id] ++ [.source] ++ [.specVersion] ++ [.type] := rfl
    rw [Event.present, hall, List.filter_append, List.filter_append, List.filter_append,
      List.map_append, List.map_append, List.map_append, ← htext, ← htext, ← htext, ← htext]
    rfl
  have hentries : (ofEvent e).attributes.map entryRecord = e.attributes.map attributeRecord := by
    rw [ofEvent, List.map_map]
    rfl
  rw [EventMessage.records, hentries, Event.records, ← htexts]
  rfl

/-- Every field of an event is length-delimited and has a number from one to eight. -/
theorem Event.exists_delimited_of_mem_records {e : Event} {written : List RequiredField}
    {r : Record} (h : r ∈ e.records written) :
    ∃ number bytes, r = ⟨number, .delimited bytes⟩ ∧ 0 < number ∧ number ≤ 8 := by
  simp only [records, List.mem_append, List.mem_map, Option.mem_toList, Option.map_eq_some_iff] at h
  obtain (⟨field, -, rfl⟩ | ⟨entry, -, rfl⟩) | ⟨d, -, rfl⟩ := h
  · exact ⟨field.fieldNumber, _, rfl, by cases field <;> decide⟩
  · exact ⟨attributesField, _, rfl, by decide⟩
  · cases d <;> exact ⟨_, _, rfl, by decide⟩

/-- The records of a written form that is not too long can all be read back. -/
theorem Event.fits_records {e : Event} {written : List RequiredField}
    (h : (encodeRecords (e.records written)).length ≤ maxLength) :
    ∀ r ∈ e.records written, r.Fits depth := by
  intro r hr
  obtain ⟨number, bytes, rfl, hpos, hle⟩ := exists_delimited_of_mem_records hr
  exact Record.fits_of_mem h hr hpos hle

/-! ### Reading the records of an event -/

namespace EventMessage

/-- The message with another text for a required attribute. -/
def setRequired (m : EventMessage) (field : RequiredField) (text : String) : EventMessage :=
  match field with
  | .id => { m with id := text }
  | .source => { m with source := text }
  | .specVersion => { m with specVersion := text }
  | .type => { m with type := text }

theorem required_setRequired (m : EventMessage) (field f : RequiredField) (text : String) :
    (m.setRequired field text).required f = if f = field then text else m.required f := by
  cases field <;> cases f <;> rfl

theorem apply_requiredRecord (m : EventMessage) (e : Event) (field : RequiredField) :
    m.apply depth (e.requiredRecord field) = some (m.setRequired field (e.required field)) := by
  cases field <;>
    simp [apply, setRequired, Event.requiredRecord, RequiredField.fieldNumber, Bytes.toText?_ofText]

/-- A message whose texts are to become those of an event has them once all that differ have been
written. -/
theorem foldlM_requiredRecords {m : EventMessage} {e : Event} {written : List RequiredField}
    (h : ∀ f, m.required f ≠ e.required f → f ∈ written) :
    (written.map e.requiredRecord).foldlM (apply depth) m
      = some { m with id := e.id, source := e.source, specVersion := e.specVersion
                      type := e.type } := by
  induction written generalizing m with
  | nil =>
    have hall (f : RequiredField) : m.required f = e.required f :=
      Decidable.of_not_not fun hne => List.not_mem_nil (h f hne)
    have hid : m.id = e.id := hall .id
    have hsource : m.source = e.source := hall .source
    have hspec : m.specVersion = e.specVersion := hall .specVersion
    have htype : m.type = e.type := hall .type
    rw [← hid, ← hsource, ← hspec, ← htype]
    rfl
  | cons field rest ih =>
    have hrest : ∀ f, (m.setRequired field (e.required field)).required f ≠ e.required f →
        f ∈ rest := by
      intro f hne
      rw [required_setRequired] at hne
      by_cases hf : f = field
      · rw [if_pos hf, hf] at hne
        exact absurd rfl hne
      · rw [if_neg hf] at hne
        exact (List.mem_cons.mp (h f hne)).resolve_left hf
    rw [List.map_cons, List.foldlM_cons, apply_requiredRecord]
    refine (ih hrest).trans ?_
    cases field <;> rfl

@[simp] theorem required_empty (f : RequiredField) : ({} : EventMessage).required f = "" := by
  cases f <;> rfl

/-- The texts of an event, before anything else is read. -/
theorem foldlM_texts {e : Event} {written : List RequiredField}
    (hwritten : ∀ f, e.required f ≠ "" → f ∈ written) :
    (written.map e.requiredRecord).foldlM (apply depth) {}
      = some { ofEvent e with attributes := [], data := none } := by
  refine foldlM_requiredRecords fun f hne => hwritten f fun hempty => hne ?_
  rw [hempty, required_empty]

theorem apply_attributeRecord (m : EventMessage) {entry : String × AttributeValue}
    (hv : entry.2.Valid) (h : (attributeRecord entry).Fits depth) :
    m.apply depth (attributeRecord entry)
      = some { m with attributes := m.attributes.insert entry.1 { value := some entry.2 } } := by
  have hbody : (entryBody entry.1 { value := some entry.2 }).length ≤ maxLength := h.payload_fits
  show (EntryMessage.parse (depth - 1) (entryBody entry.1 { value := some entry.2 })).map
    (m.addEntry _) = _
  rw [EntryMessage.parse_entryBody hv hbody]
  rfl

/-- Entries are read over those that are held. -/
theorem foldlM_attributeRecords_of_held {entries : NameMap AttributeValue} {m : EventMessage}
    (hv : ∀ entry ∈ entries, entry.2.Valid)
    (h : ∀ entry ∈ entries, (attributeRecord entry).Fits depth) :
    (entries.map attributeRecord).foldlM (apply depth) m
      = some { m with
          attributes := m.attributes.overriddenBy
            (entries.map fun entry => (entry.1, { value := some entry.2 })) } := by
  induction entries generalizing m with
  | nil => rfl
  | cons entry rest ih =>
    obtain ⟨hvhead, hvrest⟩ := List.forall_mem_cons.mp hv
    obtain ⟨hhead, hrest⟩ := List.forall_mem_cons.mp h
    rw [List.map_cons, List.foldlM_cons, apply_attributeRecord m hvhead hhead]
    exact ih hvrest hrest

theorem foldlM_attributeRecords {entries : NameMap AttributeValue} {m : EventMessage}
    (hnodup : (m.attributes.names ++ entries.names).Nodup)
    (hv : ∀ entry ∈ entries, entry.2.Valid)
    (h : ∀ entry ∈ entries, (attributeRecord entry).Fits depth) :
    (entries.map attributeRecord).foldlM (apply depth) m
      = some { m with attributes := m.attributes
          ++ entries.map fun entry => (entry.1, { value := some entry.2 }) } := by
  rw [foldlM_attributeRecords_of_held hv h, NameMap.overriddenBy_eq_append]
  simpa [NameMap.names, Function.comp_def] using hnodup

/-- A payload is read over the one that is held. -/
theorem foldlM_dataRecord {m : EventMessage} {data : Option EventData}
    (h : ∀ d ∈ data, d.record.Fits depth) :
    (data.map EventData.record).toList.foldlM (apply depth) m
      = some { m with data := EventData.overridden m.data data } := by
  cases data with
  | none => rfl
  | some d =>
    have hfits := h d rfl
    obtain ⟨id, source, specVersion, type, attributes, held, unknown⟩ := m
    cases d with
    | binary b => cases held <;> rfl
    | text s =>
      cases held <;>
        simp [EventData.record, apply, DataKind.fieldNumber, Bytes.toText?_ofText,
          EventData.overridden]
    | structured s =>
      have hs : s.encode.length ≤ maxLength := hfits.payload_fits
      rcases held with _ | _ | _ | s' <;>
        simp [EventData.record, apply, DataKind.fieldNumber, heldStructured, EventData.overridden,
          StructuredData.merge_encode hs]

/-- The records of an event are read over what a message holds. Of the required attributes only
those may be left out that the message holds already. -/
theorem foldlM_records_of_held {m : EventMessage} {e : Event}
    (hv : ∀ entry ∈ e.attributes, entry.2.Valid) {written : List RequiredField}
    (hwritten : ∀ f, m.required f ≠ e.required f → f ∈ written)
    (h : ∀ r ∈ e.records written, r.Fits depth) :
    (e.records written).foldlM (apply depth) m = some (m.overriddenBy e) := by
  -- the entries and the payload, each read over whatever is held before them
  have hentries (m : EventMessage) : (e.attributes.map attributeRecord).foldlM (apply depth) m
      = some { m with attributes := m.attributes.overriddenBy (ofEvent e).attributes } := by
    refine foldlM_attributeRecords_of_held hv fun entry he => h _ ?_
    exact List.mem_append_left _ (List.mem_append_right _ (List.mem_map_of_mem he))
  have hdata (m : EventMessage) : (e.data.map EventData.record).toList.foldlM (apply depth) m
      = some { m with data := EventData.overridden m.data e.data } := by
    refine foldlM_dataRecord fun d hd => h _ ?_
    refine List.mem_append_right _ (Option.mem_toList.mpr ?_)
    exact Option.map_eq_some_iff.mpr ⟨d, hd, rfl⟩
  exact foldlM_append_eq_some
    (foldlM_append_eq_some (foldlM_requiredRecords hwritten) (hentries _)) (hdata _)

/-- The records of an event make its message, with the entries in the order in which they stand. Of
the required attributes only empty ones may be left out. -/
theorem foldlM_records {e : Event} (hnodup : e.attributes.names.Nodup)
    (hv : ∀ entry ∈ e.attributes, entry.2.Valid) {written : List RequiredField}
    (hwritten : ∀ f, e.required f ≠ "" → f ∈ written)
    (h : ∀ r ∈ e.records written, r.Fits depth) :
    (e.records written).foldlM (apply depth) {} = some (ofEvent e) := by
  rw [← overriddenBy_empty hnodup]
  refine foldlM_records_of_held hv (fun f hne => hwritten f fun hempty => hne ?_) h
  rw [hempty, required_empty]

/-- **The records of an event are read back** as its message. -/
theorem parse_records {e : Event} (hnodup : e.attributes.names.Nodup)
    (hv : ∀ entry ∈ e.attributes, entry.2.Valid) {written : List RequiredField}
    (hwritten : ∀ f, e.required f ≠ "" → f ∈ written)
    (h : ∀ r ∈ e.records written, r.Fits depth) :
    EventMessage.parse depth (encodeRecords (e.records written)) = some (ofEvent e) := by
  rw [parse, mergeMessage_encodeRecords h]
  exact foldlM_records hnodup hv hwritten h

/-- **The written form of an event is read back**, with its entries in the order in which they were
written. -/
theorem parse_encode {e : Event} (hnodup : e.attributes.names.Nodup)
    (hv : ∀ entry ∈ e.attributes, entry.2.Valid)
    (h : (ofEvent e).encode.length ≤ maxLength) :
    EventMessage.parse depth (ofEvent e).encode = some (ofEvent e) := by
  rw [encode, records_ofEvent] at h ⊢
  refine parse_records hnodup hv (fun f hne => ?_) (Event.fits_records h)
  exact List.mem_filter.mpr ⟨RequiredField.mem_all f, decide_eq_true hne⟩

end EventMessage

end CloudEvents
