import CloudEvents.Proofs.AddedEntries
import CloudEvents.Proofs.Spellings

/-!
# Integers on the wire

All integers of an event are varints, and a varint may say more than its field holds. An integer
attribute keeps the low 32 bits, and so does the nanosecond field of a timestamp; the seconds keep
64; and a boolean keeps whether any bit is set. Padding says nothing at all. So the number that a
reader sees of a varint is a bit vector of the width of the field, read as two's complement.

The rules of the event model are applied to that number. No varint makes an integer attribute that
is out of range, since the range is that of 32 bits, but two varints may well make a timestamp that
is no instant.

## Main definitions

* `VarintField`, `TimestampSpells`, `EntrySpells` — the bytes of a varint field, of a timestamp and
  of an entry, as anyone may write them

## Main results

* `Varint.toInt32_eq`, `Varint.toInt64_eq` — the width of a field
* `Codec.decode_wire_integers` — what varints are decoded to
-/

namespace CloudEvents

/-! ### Widths -/

theorem Varint.toInt32_eq (v : Nat) : toInt32 v = (BitVec.ofNat 32 v).toInt := by
  rw [BitVec.toInt_ofNat']
  rfl

theorem Varint.toInt64_eq (v : Nat) : toInt64 v = (BitVec.ofNat 64 v).toInt := by
  rw [BitVec.toInt_ofNat']
  rfl

/-- Whatever the low 32 bits are, they are an integer of 32 bits. -/
theorem Varint.valid_toInt32 (v : Nat) :
    (AttributeValue.integer (toInt32 v) : AttributeValue).Valid := by
  show AttributeValue.minInteger ≤ Int.bmod v UInt32.size
    ∧ Int.bmod v UInt32.size ≤ AttributeValue.maxInteger
  have hlow := Int.le_bmod (x := v) (m := UInt32.size) (by decide)
  have hhigh := Int.bmod_le (x := v) (m := UInt32.size) (by decide)
  simp only [AttributeValue.minInteger, AttributeValue.maxInteger, UInt32.size] at hlow hhigh ⊢
  omega

/-! ### Spellings -/

/-- The bytes are a field with a varint of at most ten bytes. -/
def VarintField (bytes : Bytes) (number v : Nat) : Prop :=
  ∃ tag digits, bytes = tag ++ digits ∧ TagSpells tag number 0 ∧ Varint.Spells digits v
    ∧ digits.length ≤ 10

/-- The bytes are a timestamp with these two varints, in either order. -/
def TimestampSpells (bytes : Bytes) (v w : Nat) : Prop :=
  ∃ first second, bytes = first ++ second
    ∧ (VarintField first 1 v ∧ VarintField second 2 w
      ∨ VarintField first 2 w ∧ VarintField second 1 v)

/-- The bytes are the entry of an attribute with this value, the name and the value in either
order. -/
def EntrySpells (bytes : Bytes) (name : String) (value : Bytes) : Prop :=
  ∃ body fields, RecordsSpell 0 bytes [⟨5, .delimited body⟩] ∧ RecordsSpell 0 body fields
    ∧ (fields = entryFields name value ∨ fields = (entryFields name value).reverse)

variable {depth number v w : Nat} {bytes : Bytes}

theorem readRecords_of_spells {rs : List Record} (h : RecordsSpell 0 bytes rs) (depth : Nat) :
    readRecords depth [] bytes = some rs := by
  have hread := readRecords_of_spell_append h (Nat.zero_le depth) []
  rwa [List.append_nil, readRecords_nil, Option.map_some, List.append_nil] at hread

theorem VarintField.recordsSpell (h : VarintField bytes number v) (hv : v < UInt64.size) :
    RecordsSpell 0 bytes [⟨number, .varint v⟩] := by
  obtain ⟨tag, digits, rfl, htag, hdigits, hlength⟩ := h
  have hrecord : RecordsSpell 0 (tag ++ digits ++ []) [⟨number, .varint v⟩] :=
    .record htag ⟨v, Nat.mod_eq_of_lt hv, hdigits, hlength⟩ .nil
  rwa [List.append_nil] at hrecord

theorem VarintField.readRecords_append {second : Bytes} {number' : Nat}
    (h : VarintField bytes number v) (h' : VarintField second number' w) (hv : v < UInt64.size)
    (hw : w < UInt64.size) (depth : Nat) :
    readRecords depth [] (bytes ++ second)
      = some [⟨number, .varint v⟩, ⟨number', .varint w⟩] := by
  rw [readRecords_of_spell_append (h.recordsSpell hv) (Nat.zero_le depth),
    readRecords_of_spells (h'.recordsSpell hw)]
  rfl

/-- The tag of a field below the sixteenth is one byte. -/
theorem tagSpells_singleton (tag : UInt8) (h : tag.toNat < 128) (hpos : 0 < tag.toNat / 8) :
    TagSpells [tag] (tag.toNat / 8) (tag.toNat % 8) where
  spells := (Nat.div_add_mod tag.toNat 8).symm ▸ .last h
  length_le := Nat.le_add_left 1 4
  number_pos := hpos
  tag_lt := by
    simp only [UInt32.size]
    omega

/-- A varint that is read whole is spelled. -/
theorem VarintField.of_read {tag digits : Bytes} (htag : TagSpells tag number 0)
    (h : Varint.read 10 digits = some (v, [])) : VarintField (tag ++ digits) number v := by
  obtain ⟨front, hfront, hlength, hspells⟩ := Varint.read_eq_some_iff.mp h
  rw [List.append_nil] at hfront
  exact ⟨tag, digits, rfl, htag, hfront ▸ hspells, hfront ▸ hlength⟩

/-- A written record is spelled. -/
theorem recordsSpell_encode {body : Bytes} (hpos : 0 < number) (hle : number ≤ 8)
    (h : body.length ≤ maxLength) :
    RecordsSpell 0 (Record.encode ⟨number, .delimited body⟩) [⟨number, .delimited body⟩] := by
  rw [← encodeRecords_singleton]
  exact recordsSpell_encodeRecords
    (List.forall_mem_singleton.mpr (Record.fits_of_number hpos hle h))

/-- A written entry is spelled. -/
theorem entrySpells_encode {name : String} {value : Bytes}
    (h : (encodeRecords (entryFields name value)).length ≤ maxLength) :
    EntrySpells (Record.encode ⟨5, .delimited (encodeRecords (entryFields name value))⟩) name
      value :=
  ⟨_, _, recordsSpell_encode (by decide) (by decide) h,
    recordsSpell_encodeRecords (fits_entryFields h), .inl rfl⟩

/-! ### Values -/

/-- The two fields of a timestamp are read to their widths. -/
theorem Timestamp.merge_of_spells (h : TimestampSpells bytes v w) (hv : v < UInt64.size)
    (hw : w < UInt64.size) :
    Timestamp.merge depth { seconds := 0 } bytes
      = some { seconds := Varint.toInt64 v, nanos := Varint.toInt32 w } := by
  obtain ⟨first, second, rfl, ⟨hfirst, hsecond⟩ | ⟨hfirst, hsecond⟩⟩ := h
  · rw [merge, mergeMessage_of_readRecords (hfirst.readRecords_append hsecond hv hw depth)]
    simp [apply]
  · rw [merge, mergeMessage_of_readRecords (hfirst.readRecords_append hsecond hw hv depth)]
    simp [apply]

namespace AttributeMessage

theorem merge_boolean (h : VarintField bytes 1 v) (hv : v < UInt64.size) :
    merge depth {} bytes = some { value := some (.boolean (v ≠ 0)) } := by
  rw [merge, mergeMessage_of_readRecords (readRecords_of_spells (h.recordsSpell hv) depth)]
  rfl

theorem merge_integer (h : VarintField bytes 2 v) (hv : v < UInt64.size) :
    merge depth {} bytes = some { value := some (.integer (Varint.toInt32 v)) } := by
  rw [merge, mergeMessage_of_readRecords (readRecords_of_spells (h.recordsSpell hv) depth)]
  rfl

theorem merge_timestamp {body : Bytes} (h : RecordsSpell 0 bytes [⟨7, .delimited body⟩])
    (hbody : TimestampSpells body v w) (hv : v < UInt64.size) (hw : w < UInt64.size) :
    merge depth {} bytes
      = some
        { value := some (.timestamp
            { seconds := Varint.toInt64 v, nanos := Varint.toInt32 w }) } := by
  rw [merge, mergeMessage_of_readRecords (readRecords_of_spells h depth), List.foldlM_cons]
  show ((Timestamp.merge (depth - 1) { seconds := 0 } body).map _).bind _ = _
  rw [Timestamp.merge_of_spells hbody hv hw]
  rfl

end AttributeMessage

/-- An entry is read to its name and its value. -/
theorem EntryMessage.exists_parse_of_spells {name : String} {value : Bytes} {m : AttributeMessage}
    (h : EntrySpells bytes name value)
    (hvalue : AttributeMessage.merge (depth - 1) {} value = some m) :
    ∃ body, RecordsSpell 0 bytes [⟨5, .delimited body⟩]
      ∧ EntryMessage.parse depth body = some { key := name, value := m } := by
  obtain ⟨body, fields, hrecord, hbody, hfields⟩ := h
  refine ⟨body, hrecord, ?_⟩
  rw [parse, mergeMessage_of_readRecords (readRecords_of_spells hbody depth)]
  obtain rfl | rfl := hfields
  · simp [entryFields, apply, Bytes.toText?_ofText, hvalue]
  · simp [entryFields, apply, Bytes.toText?_ofText, hvalue]

/-! ### Decoding -/

namespace Codec

variable {c : Codec} {front back : List Segment} {entry : Segment} {e : Event} {name : String}
  {value : Bytes}

/-- An entry that is spelled in any way, with a value that is read. -/
theorem decode_spelled_entry {w : AttributeValue}
    (h : c.decode (Segment.join (front ++ back)) = .ok e)
    (hempty : name ≠ "") (hreserved : name ∉ reservedNames)
    (hentry : EntrySpells entry.bytes name value)
    (hlast : ∀ s ∈ back, s.record.slot? maxDepth ≠ some (.entry name))
    (hsize : (Segment.join (front ++ entry :: back)).length ≤ c.maxMessageSize)
    (hvalue : AttributeMessage.merge (maxDepth - 1 - 1) {} value = some { value := some w }) :
    (w.Valid → ∃ e', c.decode (Segment.join (front ++ entry :: back)) = .ok e'
        ∧ e'.Same { e with attributes := e.attributes.insert name w })
      ∧ (¬ w.Valid → c.decode (Segment.join (front ++ entry :: back))
        = .error { fault := .invalid w.violations }) := by
  obtain ⟨body, hspells, hbody⟩ := EntryMessage.exists_parse_of_spells hentry hvalue
  have hread : [entry.record] = [⟨5, .delimited body⟩] :=
    Option.some.inj (entry.reads.symm.trans (readRecords_of_spells hspells maxDepth))
  exact c.decode_added_entry h (Event.nameViolation_eq_none_iff.mpr ⟨hempty, hreserved⟩)
    (List.cons.inj hread).1 hbody hlast hsize

/-- **What varints are decoded to.** Into bytes that decode to an event the entry of an attribute is
put, before no other entry of that name. A varint of at most ten bytes, padded or not, is the
integer that its low 32 bits are in two's complement, or the truth value whether it is not zero. Two
varints are the timestamp of the signed 64 bits of the one and the signed low 32 bits of the other
if that names an instant, and a malformed envelope if it does not. -/
theorem decode_wire_integers {v : Nat}
    (h : c.decode (Segment.join (front ++ back)) = .ok e)
    (hempty : name ≠ "") (hreserved : name ∉ reservedNames)
    (hentry : EntrySpells entry.bytes name value)
    (hlast : ∀ s ∈ back, s.record.slot? maxDepth ≠ some (.entry name))
    (hsize : (Segment.join (front ++ entry :: back)).length ≤ c.maxMessageSize)
    (hv : v < UInt64.size) :
    (VarintField value AttributeKind.integer.fieldNumber v →
        -2147483648 ≤ (BitVec.ofNat 32 v).toInt ∧ (BitVec.ofNat 32 v).toInt ≤ 2147483647
        ∧ ∃ e', c.decode (Segment.join (front ++ entry :: back)) = .ok e'
          ∧ e'.Same { e with
              attributes := e.attributes.insert name (.integer (BitVec.ofNat 32 v).toInt) })
    ∧ (VarintField value AttributeKind.boolean.fieldNumber v →
        ∃ e', c.decode (Segment.join (front ++ entry :: back)) = .ok e'
          ∧ e'.Same { e with attributes := e.attributes.insert name (.boolean (v ≠ 0)) })
    ∧ ∀ body w, RecordsSpell 0 value [⟨AttributeKind.timestamp.fieldNumber, .delimited body⟩] →
        TimestampSpells body v w → w < UInt64.size →
        let t : Timestamp :=
          { seconds := (BitVec.ofNat 64 v).toInt, nanos := (BitVec.ofNat 32 w).toInt }
        (t.Valid → ∃ e', c.decode (Segment.join (front ++ entry :: back)) = .ok e'
            ∧ e'.Same { e with attributes := e.attributes.insert name (.timestamp t) })
        ∧ (¬ t.Valid → ∃ err, c.decode (Segment.join (front ++ entry :: back)) = .error err
            ∧ err.rejection = .malformedEnvelope
            ∧ err.cause = some (.violations t.violations)) := by
  refine ⟨fun hfield => ?_, fun hfield => ?_, fun body w hrecord hbody hw => ?_⟩
  · have hdecode := decode_spelled_entry h hempty hreserved hentry hlast hsize
      (AttributeMessage.merge_integer hfield hv)
    obtain ⟨hlow, hhigh⟩ := Varint.valid_toInt32 v
    rw [← Varint.toInt32_eq]
    exact ⟨hlow, hhigh, hdecode.1 ⟨hlow, hhigh⟩⟩
  · have hdecode := decode_spelled_entry h hempty hreserved hentry hlast hsize
      (AttributeMessage.merge_boolean hfield hv)
    exact hdecode.1 trivial
  · have hdecode := decode_spelled_entry h hempty hreserved hentry hlast hsize
      (AttributeMessage.merge_timestamp hrecord hbody hv hw)
    rw [← Varint.toInt64_eq, ← Varint.toInt32_eq]
    exact ⟨hdecode.1, fun ht => ⟨_, hdecode.2 ht, rfl, rfl⟩⟩

/-- A negative integer in six bytes; five nanoseconds after the last second before 1970, with a
varint of more than 32 bits; and one nanosecond before that second, which is refused. -/
theorem decode_wire_integers_negative :
    let c : Codec := {}
    let e : Event := { id := "7", source := "u", specVersion := "2", type := "v" }
    let front : List Segment :=
      [⟨[0x0A, 0x01, 0x37], ⟨1, .delimited [0x37]⟩, by decide +kernel⟩,
       ⟨[0x12, 0x01, 0x75], ⟨2, .delimited [0x75]⟩, by decide +kernel⟩,
       ⟨[0x1A, 0x01, 0x32], ⟨3, .delimited [0x32]⟩, by decide +kernel⟩]
    let back : List Segment := [⟨[0x22, 0x01, 0x76], ⟨4, .delimited [0x76]⟩, by decide +kernel⟩]
    let integer : Segment :=
      ⟨[0x2A, 0x0C, 0x0A, 0x01, 0x61, 0x12, 0x07, 0x10, 0x80, 0x80, 0x80, 0x80, 0x88, 0x00],
        ⟨5, .delimited [0x0A, 0x01, 0x61, 0x12, 0x07, 0x10, 0x80, 0x80, 0x80, 0x80, 0x88, 0x00]⟩,
        by decide +kernel⟩
    let instant : Segment :=
      ⟨[0x2A, 0x18, 0x0A, 0x01, 0x61, 0x12, 0x13, 0x3A, 0x11, 0x08, 0xFF, 0xFF, 0xFF, 0xFF, 0xFF,
          0xFF, 0xFF, 0xFF, 0xFF, 0x01, 0x10, 0x85, 0x80, 0x80, 0x80, 0x10],
        ⟨5, .delimited [0x0A, 0x01, 0x61, 0x12, 0x13, 0x3A, 0x11, 0x08, 0xFF, 0xFF, 0xFF, 0xFF,
          0xFF, 0xFF, 0xFF, 0xFF, 0xFF, 0x01, 0x10, 0x85, 0x80, 0x80, 0x80, 0x10]⟩,
        by decide +kernel⟩
    let before : Segment :=
      ⟨[0x2A, 0x18, 0x0A, 0x01, 0x61, 0x12, 0x13, 0x3A, 0x11, 0x08, 0xFF, 0xFF, 0xFF, 0xFF, 0xFF,
          0xFF, 0xFF, 0xFF, 0xFF, 0x01, 0x10, 0xFF, 0xFF, 0xFF, 0xFF, 0x0F],
        ⟨5, .delimited [0x0A, 0x01, 0x61, 0x12, 0x13, 0x3A, 0x11, 0x08, 0xFF, 0xFF, 0xFF, 0xFF,
          0xFF, 0xFF, 0xFF, 0xFF, 0xFF, 0x01, 0x10, 0xFF, 0xFF, 0xFF, 0xFF, 0x0F]⟩,
        by decide +kernel⟩
    c.decode (Segment.join (front ++ back)) = .ok e
      ∧ (∃ e', c.decode (Segment.join (front ++ integer :: back)) = .ok e'
        ∧ e'.Same { e with attributes := [("a", .integer (-2147483648))] })
      ∧ (∃ e', c.decode (Segment.join (front ++ instant :: back)) = .ok e'
        ∧ e'.Same { e with attributes := [("a", .timestamp { seconds := -1, nanos := 5 })] })
      ∧ ∃ err, c.decode (Segment.join (front ++ before :: back)) = .error err
        ∧ err.rejection = .malformedEnvelope
        ∧ err.cause = some (.violations [.nanosRange (-1)]) := by
  intro c e front back integer instant before
  have hdecode : c.decode (Segment.join (front ++ back)) = .ok e :=
    decode_eq_ok_iff.mpr (by decide +kernel)
  have hentry (bytes value : Bytes)
      (hbytes : Record.encode ⟨5, .delimited (encodeRecords (entryFields "a" value))⟩ = bytes)
      (hlength : (encodeRecords (entryFields "a" value)).length ≤ maxLength) :
      EntrySpells bytes "a" value := hbytes ▸ entrySpells_encode hlength
  have htimestamp (bytes body : Bytes) (hbytes : Record.encode ⟨7, .delimited body⟩ = bytes)
      (hlength : body.length ≤ maxLength) : RecordsSpell 0 bytes [⟨7, .delimited body⟩] :=
    hbytes ▸ recordsSpell_encode (by decide) (by decide) hlength
  let allBits : Bytes := [0x08, 0xFF, 0xFF, 0xFF, 0xFF, 0xFF, 0xFF, 0xFF, 0xFF, 0xFF, 0x01]
  have hseconds : VarintField allBits 1 18446744073709551615 :=
    .of_read (tagSpells_singleton 0x08 (by decide) (by decide)) (by decide)
  refine ⟨hdecode, ?_, ?_, ?_⟩
  · let value : Bytes := [0x10, 0x80, 0x80, 0x80, 0x80, 0x88, 0x00]
    have hfield : VarintField value 2 2147483648 :=
      .of_read (tagSpells_singleton 0x10 (by decide) (by decide)) (by decide)
    have hspells : EntrySpells integer.bytes "a" value :=
      hentry _ _ (by decide +kernel) (by decide +kernel)
    have hall := decode_wire_integers hdecode (by decide) (by decide) hspells
      (by decide +kernel) (by decide +kernel) (v := 2147483648) (by decide)
    exact (hall.1 hfield).2.2
  · let body : Bytes := allBits ++ [0x10, 0x85, 0x80, 0x80, 0x80, 0x10]
    have hnanos : VarintField [0x10, 0x85, 0x80, 0x80, 0x80, 0x10] 2 4294967301 :=
      .of_read (tagSpells_singleton 0x10 (by decide) (by decide)) (by decide)
    have hspells : EntrySpells instant.bytes "a" (0x3A :: 0x11 :: body) :=
      hentry _ _ (by decide +kernel) (by decide +kernel)
    have hall := decode_wire_integers hdecode (by decide) (by decide) hspells
      (by decide +kernel) (by decide +kernel) (v := 18446744073709551615) (by decide)
    exact (hall.2.2 body 4294967301 (htimestamp _ _ (by decide +kernel) (by decide +kernel))
      ⟨_, _, rfl, .inl ⟨hseconds, hnanos⟩⟩ (by decide)).1 (by decide)
  · let body : Bytes := allBits ++ [0x10, 0xFF, 0xFF, 0xFF, 0xFF, 0x0F]
    have hnanos : VarintField [0x10, 0xFF, 0xFF, 0xFF, 0xFF, 0x0F] 2 4294967295 :=
      .of_read (tagSpells_singleton 0x10 (by decide) (by decide)) (by decide)
    have hspells : EntrySpells before.bytes "a" (0x3A :: 0x11 :: body) :=
      hentry _ _ (by decide +kernel) (by decide +kernel)
    have hall := decode_wire_integers hdecode (by decide) (by decide) hspells
      (by decide +kernel) (by decide +kernel) (v := 18446744073709551615) (by decide)
    exact (hall.2.2 body 4294967295 (htimestamp _ _ (by decide +kernel) (by decide +kernel))
      ⟨_, _, rfl, .inl ⟨hseconds, hnanos⟩⟩ (by decide)).2 (by decide)

end Codec

end CloudEvents
