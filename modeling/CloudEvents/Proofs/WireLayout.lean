import CloudEvents.Proofs.NameOrder
import CloudEvents.Proofs.Spellings

/-!
# The wire layout

What a codec writes of an event, byte by byte. The writer builds a message, fills a map and sorts
it, and turns what it holds into records. The layout below knows none of this: it says of each part
of an event which bytes it becomes, and an event becomes the bytes of its parts one after the other.
That the two agree is `Codec.encode_eq_layout`.

Every field has a number below sixteen, so a tag is one byte. Texts, bytes and messages stand behind
their length, and an integer is written as the 64 bits of its two's complement, ten bytes if it is
negative. A value is one field, which is written whatever it holds. Only in the two messages that
are not this format's own, the timestamp and the typed payload, are default values left out.

The attributes stand in the order `WrittenBefore`. It is the ascending order of names unless one
name is a proper prefix of another, and then it is not: `Codec.not_ascending_encode` is a case.

## Main definitions

* `Layout.value`, `Layout.entry`, `Layout.payload`, `Layout.event` — parts of an event as bytes

## Main results

* `EventMessage.encode_ofEvent` — the message of an event is written as its layout
* `Codec.encode_eq_layout` — what a deterministic codec writes
-/

namespace CloudEvents

namespace Layout

/-! ### Fields -/

/-- A field number and a wire type, in one byte. -/
def tag (number wireType : Nat) : UInt8 := UInt8.ofNat (8 * number + wireType)

/-- An integer field. -/
def integer (number : Nat) (i : Int) : Bytes := tag number 0 :: Varint.encode (Varint.ofInt i)

/-- A field of bytes, which stand behind their length. -/
def delimited (number : Nat) (bytes : Bytes) : Bytes :=
  tag number 2 :: (Varint.encode bytes.length ++ bytes)

def text (number : Nat) (s : String) : Bytes := delimited number (Bytes.ofText s)

/-! ### Parts of an event -/

/-- Zero seconds and zero nanoseconds are left out. -/
def timestamp (t : Timestamp) : Bytes :=
  (if t.seconds = 0 then [] else integer 1 t.seconds)
    ++ if t.nanos = 0 then [] else integer 2 t.nanos

/-- An empty type URL and an empty value are left out. -/
def structured (s : StructuredData) : Bytes :=
  (if s.typeUrl = "" then [] else text 1 s.typeUrl)
    ++ if s.value = [] then [] else delimited 2 s.value

/-- One field, always there: its number is the kind of the value. -/
def value : AttributeValue → Bytes
  | .boolean b => [tag 1 0, if b then 1 else 0]
  | .integer i => integer 2 i
  | .string s => text 3 s
  | .bytes b => delimited 4 b
  | .uri s => text 5 s
  | .uriRef s => text 6 s
  | .timestamp t => delimited 7 (timestamp t)

/-- A name with its value. -/
def entry (a : String × AttributeValue) : Bytes :=
  delimited 5 (text 1 a.1 ++ delimited 2 (value a.2))

def payload : EventData → Bytes
  | .binary b => delimited 6 b
  | .text s => text 7 s
  | .structured s => delimited 8 (structured s)

/-- An event, its attributes as they stand. -/
def event (e : Event) : Bytes :=
  text 1 e.id ++ text 2 e.source ++ text 3 e.specVersion ++ text 4 e.type
    ++ e.attributes.flatMap entry ++ (e.data.map payload).getD []

/-! ### Agreement with the writer -/

variable {number wireType : Nat}

theorem encode_tag (hnumber : number < 16) (hwire : wireType < 8) :
    Varint.encode (8 * number + wireType) = [tag number wireType] := by
  rw [Varint.encode, if_pos (by omega)]
  rfl

theorem encode_delimited (hnumber : number < 16) (bytes : Bytes) :
    (⟨number, .delimited bytes⟩ : Record).encode = delimited number bytes := by
  rw [Record.encode, Payload.wireType, encode_tag hnumber (by decide)]
  rfl

theorem encode_varint (hnumber : number < 16) (n : Nat) :
    (⟨number, .varint n⟩ : Record).encode = tag number 0 :: Varint.encode n := by
  rw [Record.encode, Payload.wireType, encode_tag hnumber (by decide)]
  rfl

end Layout

/-- A field that may be left out. -/
theorem encodeRecords_ite (p : Prop) [Decidable p] (r : Record) :
    encodeRecords (if p then [] else [r]) = if p then [] else r.encode := by
  rw [apply_ite encodeRecords, encodeRecords_singleton]
  rfl

theorem Timestamp.encode_eq (t : Timestamp) : t.encode = Layout.timestamp t := by
  rw [encode, records, encodeRecords_append, encodeRecords_ite, encodeRecords_ite,
    Layout.encode_varint (by decide), Layout.encode_varint (by decide)]
  rfl

theorem StructuredData.encode_eq (s : StructuredData) :
    s.encode = Layout.structured s := by
  rw [encode, records, encodeRecords_append, encodeRecords_ite, encodeRecords_ite,
    Layout.encode_delimited (by decide), Layout.encode_delimited (by decide)]
  rfl

theorem AttributeMessage.encode_value (v : AttributeValue) :
    AttributeMessage.encode { value := some v } = Layout.value v := by
  show encodeRecords [v.record] = _
  rw [encodeRecords_singleton]
  cases v with
  | boolean b =>
    rw [AttributeValue.record, Layout.encode_varint (by decide)]
    cases b <;> rw [Varint.encode] <;> rfl
  | integer i => exact Layout.encode_varint (by decide) _
  | timestamp t =>
    rw [AttributeValue.record, Layout.encode_delimited (by decide), Timestamp.encode_eq]
    rfl
  | _ => exact Layout.encode_delimited (by decide) _

theorem encode_attributeRecord (a : String × AttributeValue) :
    (attributeRecord a).encode = Layout.entry a := by
  have hbody : encodeRecords [(⟨1, .delimited (Bytes.ofText a.1)⟩ : Record),
      ⟨2, .delimited (AttributeMessage.encode { value := some a.2 })⟩]
        = Layout.text 1 a.1 ++ Layout.delimited 2 (Layout.value a.2) := by
    rw [encodeRecords, List.flatMap_cons, List.flatMap_singleton,
      Layout.encode_delimited (by decide), Layout.encode_delimited (by decide),
      AttributeMessage.encode_value]
    rfl
  rw [attributeRecord, entryRecord, hbody]
  exact Layout.encode_delimited (by decide) _

theorem EventData.encode_record (d : EventData) : d.record.encode = Layout.payload d := by
  cases d with
  | structured s =>
    rw [EventData.record, Layout.encode_delimited (by decide), StructuredData.encode_eq]
    rfl
  | _ => exact Layout.encode_delimited (by decide) _

/-- **The message of an event is written as its layout**, with the attributes as they stand. -/
theorem EventMessage.encode_ofEvent {e : Event} (h : ∀ f, e.required f ≠ "") :
    (ofEvent e).encode = Layout.event e := by
  have hrequired : encodeRecords (RequiredField.all.map e.requiredRecord)
      = Layout.text 1 e.id ++ Layout.text 2 e.source ++ Layout.text 3 e.specVersion
        ++ Layout.text 4 e.type := by
    have htext (f : RequiredField) :
        (e.requiredRecord f).encode = Layout.text f.fieldNumber (e.required f) :=
      Layout.encode_delimited (by cases f <;> decide) _
    simp only [encodeRecords, RequiredField.all, List.map_cons, List.map_nil, List.flatMap_cons,
      List.flatMap_nil, htext, List.append_nil, List.append_assoc]
    rfl
  have hattributes : encodeRecords (e.attributes.map attributeRecord)
      = e.attributes.flatMap Layout.entry := by
    rw [encodeRecords, List.flatMap_map]
    exact List.flatMap_congr fun a _ => encode_attributeRecord a
  have hdata : encodeRecords (e.data.map EventData.record).toList
      = (e.data.map Layout.payload).getD [] := by
    cases e.data with
    | none => rfl
    | some d => exact (encodeRecords_singleton d.record).trans d.encode_record
  rw [encode_eq_records h, Event.records, encodeRecords_append, encodeRecords_append, hrequired,
    hattributes, hdata]
  rfl

/-! ### What a deterministic codec writes -/

/-- The bytes of an event, its attributes in the order in which names are written. -/
def Event.canonicalEncoding (e : Event) : Bytes := Layout.event e.sorted

theorem Event.canonicalEncoding_eq_encode {e : Event} (h : e.Valid) :
    e.canonicalEncoding = (EventMessage.ofEvent e.sorted).encode :=
  (EventMessage.encode_ofEvent (Event.valid_sorted h).required_ne_empty).symm

theorem Event.InWritingOrder.canonicalEncoding_eq {e : Event} {entries : NameMap AttributeValue}
    (h : e.InWritingOrder entries) (hnodup : e.attributes.names.Nodup) :
    e.canonicalEncoding = Layout.event { e with attributes := entries } := by
  rw [canonicalEncoding, h.eq_sorted hnodup]
  rfl

namespace Codec

variable {c : Codec} {e : Event}

theorem encode_message (hc : c.deterministic = true) (h : e.Valid) :
    (c.message e).encode = e.canonicalEncoding := by
  have hwritten : c.written e = e.sorted := if_pos hc
  have hrequired := (c.valid_written h).required_ne_empty
  rw [message_eq_ofEvent c h.names_nodup, EventMessage.encode_ofEvent hrequired, hwritten]
  rfl

theorem encode_eq_ok_iff (hc : c.deterministic = true) (h : e.Valid) {bytes : Bytes} :
    c.encode e = .ok bytes
      ↔ e.canonicalEncoding.length ≤ c.maxMessageSize ∧ bytes = e.canonicalEncoding := by
  rw [encode, bounded_eq_ok_iff, encode_message hc h, eq_comm (a := bytes)]

theorem encode_eq_ok_of_inWritingOrder (hc : c.deterministic = true) (h : e.Valid)
    {entries : NameMap AttributeValue} (horder : e.InWritingOrder entries)
    (hsize : (Layout.event { e with attributes := entries }).length ≤ c.maxMessageSize) :
    c.encode e = .ok (Layout.event { e with attributes := entries }) := by
  rw [encode_eq_ok_iff hc h, horder.canonicalEncoding_eq h.names_nodup]
  exact ⟨hsize, rfl⟩

/-- **What a deterministic codec writes** is the layout of the event, with its attributes in the
order in which names are written, of which there is one. Names stand in ascending order, by bytes or
by code points alike, exactly if none is a proper prefix of another. Tags and lengths are minimal,
and a negative integer takes ten bytes. -/
theorem encode_eq_layout (hc : c.deterministic = true) (h : e.Valid) :
    (∃! entries, e.InWritingOrder entries)
    ∧ (∀ entries, e.InWritingOrder entries →
      (∀ bytes, c.encode e = .ok bytes
        ↔ (Layout.event { e with attributes := entries }).length ≤ c.maxMessageSize
          ∧ bytes = Layout.event { e with attributes := entries })
      ∧ ((entries.Pairwise fun a b => Bytes.ofText a.1 < Bytes.ofText b.1)
        ↔ PrefixFree e.attributes.names))
    ∧ (∀ a b : String, Bytes.ofText a < Bytes.ofText b ↔ a < b)
    ∧ (∀ number < 16, ∀ wireType < 8,
      Varint.Minimal [Layout.tag number wireType] (8 * number + wireType))
    ∧ (∀ n, Varint.Minimal (Varint.encode n) n)
    ∧ ∀ name i, (name, .integer i) ∈ e.attributes →
      (Varint.ofInt i : Int) = (if 0 ≤ i then i else i + 18446744073709551616)
      ∧ (i < 0 → (Varint.encode (Varint.ofInt i)).length = 10) := by
  have hunique : ∃! entries, e.InWritingOrder entries :=
    ⟨_, e.inWritingOrder_sorted h.names_nodup, fun entries horder =>
      horder.eq_sorted h.names_nodup⟩
  refine ⟨hunique, ?_, fun a b => Bytes.ofText_lt_iff, ?_, Varint.minimal_encode, ?_⟩
  · intro entries horder
    refine ⟨fun bytes => ?_, ?_⟩
    · rw [encode_eq_ok_iff hc h, horder.canonicalEncoding_eq h.names_nodup]
    · simp only [Bytes.ofText_lt_iff]
      exact horder.ascending_iff
  · intro number hnumber wireType hwire
    rw [← Layout.encode_tag hnumber hwire]
    exact Varint.minimal_encode _
  · intro name i hmem
    obtain ⟨hmin, hmax⟩ : -2147483648 ≤ i ∧ i ≤ 2147483647 := h.value_valid _ hmem
    refine ⟨?_, Varint.length_encode_ofInt (by omega)⟩
    rw [Varint.natCast_ofInt]
    simp only [UInt64.size]
    split <;> omega

/-- Two attributes, set in the other order, and an empty payload: every byte of the encoding. -/
theorem encode_eq_layout_bytes :
    let c : Codec := {}
    let a : String × AttributeValue := ("a", .timestamp { seconds := 0, nanos := 5 })
    let b : String × AttributeValue := ("b", .integer (-1))
    let e : Event :=
      { id := "1", source := "/", specVersion := "1.0", type := "t", attributes := [b, a]
        data := some (.text "") }
    c.encode e = .ok
      [0x0A, 0x01, 0x31, 0x12, 0x01, 0x2F, 0x1A, 0x03, 0x31, 0x2E, 0x30, 0x22, 0x01, 0x74,
        0x2A, 0x09, 0x0A, 0x01, 0x61, 0x12, 0x04, 0x3A, 0x02, 0x10, 0x05,
        0x2A, 0x10, 0x0A, 0x01, 0x62, 0x12, 0x0B, 0x10,
        0xFF, 0xFF, 0xFF, 0xFF, 0xFF, 0xFF, 0xFF, 0xFF, 0xFF, 0x01,
        0x3A, 0x00] := by
  intro c a b e
  have hvalid : e.Valid := by decide +kernel
  have horder : e.InWritingOrder [a, b] := by decide +kernel
  obtain ⟨-, hall, -⟩ := encode_eq_layout (c := c) rfl hvalid
  exact ((hall [a, b] horder).1 _).mpr (by decide +kernel)

/-- **The order of names is not the ascending one.** Of an attribute `a` and an attribute `ab` the
second is written first, so the bytes are not the layout of any ascending arrangement. -/
theorem not_ascending_encode :
    let c : Codec := {}
    let e : Event :=
      { id := "1", source := "s", specVersion := "1.0", type := "t"
        attributes := [("a", .integer 0), ("ab", .integer 0)] }
    c.deterministic = true ∧ e.Valid ∧ ∃ bytes, c.encode e = .ok bytes
      ∧ ∀ entries : NameMap AttributeValue, entries.Perm e.attributes →
        (entries.Pairwise fun a b => Bytes.ofText a.1 < Bytes.ofText b.1) →
        bytes ≠ Layout.event { e with attributes := entries } := by
  intro c e
  have hvalid : e.Valid := by decide +kernel
  have horder : e.InWritingOrder [("ab", .integer 0), ("a", .integer 0)] := by decide +kernel
  have hencode : c.encode e = .ok (Layout.event _) :=
    encode_eq_ok_of_inWritingOrder rfl hvalid horder (by decide +kernel)
  refine ⟨rfl, hvalid, _, hencode, ?_⟩
  intro entries hperm hascending
  have hself : e.attributes.Pairwise fun a b => Bytes.ofText a.1 < Bytes.ofText b.1 := by
    decide +kernel
  obtain rfl : entries = e.attributes := by
    refine hperm.eq_of_pairwise ?_ hascending hself
    intro a b _ _ hab hba
    exact absurd hba (List.lt_asymm hab)
  decide +kernel

end Codec

end CloudEvents
