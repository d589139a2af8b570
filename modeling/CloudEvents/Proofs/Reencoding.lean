import CloudEvents.Proofs.Lengths
import CloudEvents.Proofs.RoundTrip
import Mathlib.Algebra.GroupWithZero.Nat

/-!
# Writing again what was read

A message that is accepted can be written again, and this module says how much longer that can be.
The input may have been anything that reads as the event: padded varints, fields that came twice,
embedded messages in pieces. All of that only makes it longer than it has to be. So each message has
a least length, below which its bytes cannot fall, and the written form is compared with that number
and not with the bytes.

The least length is the written length but for one field. A reader keeps the low 32 bits of an
integer, so five bytes are enough for a negative one; a writer extends its sign and takes ten. Those
five bytes can lift the length of the entry over 127, and then the entry takes one byte more.

## Main definitions

* `AttributeValue.shortest` — the value whose written form is the shortest that reads as a value
* `EventMessage.leastLength` — what the bytes of an event cannot fall below
* `Event.negativeIntegers` — the attributes that are not written as short as they can be

## Main results

* `AttributeMessage.leastLength_le_of_apply`, `EventMessage.leastLength_le_of_apply` — a record
  raises the least length by at most its own
* `EventMessage.leastLength_le_of_parse` — bytes are at least as long as the least length
* `Event.length_encode_le` — a written form and its least length
* `Codec.length_reencoded_le` — relaying
-/

namespace CloudEvents

variable {depth : Nat}

/-! ### Numbers that are cut off -/

namespace Varint

/-- The low 32 bits of an integer, read as a natural number. -/
def low32 (i : Int) : Int := i % UInt32.size

/-- The 64 bits that are kept of a varint are the varint again, without the bits above them. -/
theorem ofInt_toInt64_le (n : Nat) : ofInt (toInt64 n) ≤ n := by
  have h : (ofInt (toInt64 n) : Int) = ((n % UInt64.size : Nat) : Int) := by
    rw [natCast_ofInt]
    show Int.bmod n UInt64.size % _ = _
    rw [Int.bmod_emod, Int.natCast_emod]
  rw [Int.ofNat.inj h]
  exact Nat.mod_le n _

/-- The same of the 32 bits that are kept for an integer, as long as their sign is not extended. -/
theorem ofInt_low32_toInt32_le (n : Nat) : ofInt (low32 (toInt32 n)) ≤ n := by
  have h : (ofInt (low32 (toInt32 n)) : Int) = ((n % UInt32.size : Nat) : Int) := by
    have hlt := Nat.mod_lt n (show 0 < UInt32.size by decide)
    rw [natCast_ofInt]
    show Int.bmod n UInt32.size % _ % _ = _
    rw [Int.bmod_emod, ← Int.natCast_emod, ← Int.natCast_emod,
      Nat.mod_eq_of_lt (Nat.lt_trans hlt (by decide))]
  rw [Int.ofNat.inj h]
  exact Nat.mod_le n _

/-- The low 32 bits of a negative integer take five bytes. -/
theorem length_encode_low32 {i : Int} (h : -2147483648 ≤ i) (hneg : i < 0) :
    (encode (ofInt (low32 i))).length = 5 := by
  have hvalue : (ofInt (low32 i) : Int) = i + 4294967296 := by
    rw [natCast_ofInt]
    simp only [low32, UInt64.size, UInt32.size]
    omega
  have hlow : Nat.pow 128 4 ≤ ofInt (low32 i) := by
    simp only [Nat.pow_eq, Nat.reducePow]
    omega
  have hhigh : ofInt (low32 i) < Nat.pow 128 (4 + 1) := by
    simp only [Nat.pow_eq, Nat.reduceAdd, Nat.reducePow]
    omega
  exact length_encode hlow hhigh

end Varint

/-- The timestamp whose written form is the shortest that reads as the given one. -/
def Timestamp.shortest (t : Timestamp) : Timestamp := { t with nanos := Varint.low32 t.nanos }

theorem Timestamp.length_shortest_zero :
    ({ seconds := 0 } : Timestamp).shortest.encode.length = 0 := by
  decide +kernel

/-- The value whose written form is the shortest that reads as the given one. A reader drops all but
the low 32 bits of an integer, and a writer extends its sign to 64. -/
def AttributeValue.shortest : AttributeValue → AttributeValue
  | integer i => integer (Varint.low32 i)
  | timestamp t => timestamp t.shortest
  | v => v

/-! ### Least lengths -/

namespace Timestamp

theorem length_encode (t : Timestamp) :
    t.encode.length = lengthUnless (t.seconds = 0) ⟨1, .varint (Varint.ofInt t.seconds)⟩
      + lengthUnless (t.nanos = 0) ⟨2, .varint (Varint.ofInt t.nanos)⟩ := by
  rw [encode, records, encodeRecords_append, List.length_append]
  rfl

/-! A field is replaced by one that takes no more than the record it is read from. The number is any
integer here, since it is only known by its bound. -/

theorem length_shortest_seconds_le (t : Timestamp) {i : Int} {n : Nat}
    (h : Varint.ofInt i ≤ n) :
    ({ t with seconds := i } : Timestamp).shortest.encode.length
      ≤ t.shortest.encode.length + (⟨1, .varint n⟩ : Record).encode.length := by
  rw [length_encode, length_encode]
  exact replace_left_le (Nat.le_trans (lengthUnless_le _ _) (length_encode_varint_mono h))

theorem length_shortest_nanos_le (t : Timestamp) {i : Int} {n : Nat}
    (h : Varint.ofInt (Varint.low32 i) ≤ n) :
    ({ t with nanos := i } : Timestamp).shortest.encode.length
      ≤ t.shortest.encode.length + (⟨2, .varint n⟩ : Record).encode.length := by
  rw [length_encode, length_encode]
  exact replace_right_le (Nat.le_trans (lengthUnless_le _ _) (length_encode_varint_mono h))

theorem length_shortest_le_of_apply {t t' : Timestamp} {r : Record} (h : t.apply r = some t') :
    t'.shortest.encode.length ≤ t.shortest.encode.length + r.encode.length := by
  unfold apply at h
  split at h
  · rename_i v hnumber hpayload
    obtain rfl : r = ⟨1, .varint v⟩ := by rw [← hnumber, ← hpayload]
    rw [← Option.some.inj h]
    exact length_shortest_seconds_le t (Varint.ofInt_toInt64_le v)
  · rename_i v hnumber hpayload
    obtain rfl : r = ⟨2, .varint v⟩ := by rw [← hnumber, ← hpayload]
    rw [← Option.some.inj h]
    exact length_shortest_nanos_le t (Varint.ofInt_low32_toInt32_le v)
  · rw [← Option.some.inj h]
    exact Nat.le_add_right _ _

end Timestamp

namespace StructuredData

theorem length_encode (s : StructuredData) :
    s.encode.length = lengthUnless (s.typeUrl = "") ⟨1, .delimited (Bytes.ofText s.typeUrl)⟩
      + lengthUnless (s.value = []) ⟨2, .delimited s.value⟩ := by
  rw [encode, records, encodeRecords_append, List.length_append]
  rfl

theorem length_encode_le_of_apply {s s' : StructuredData} {r : Record}
    (h : s.apply r = some s') : s'.encode.length ≤ s.encode.length + r.encode.length := by
  rw [length_encode, length_encode]
  unfold apply at h
  split at h
  · rename_i bytes hnumber hpayload
    obtain rfl : r = ⟨1, .delimited bytes⟩ := by rw [← hnumber, ← hpayload]
    obtain ⟨typeUrl, htext, rfl⟩ := Option.map_eq_some_iff.mp h
    exact replace_left_le (lengthUnless_text_le htext)
  · rename_i value hnumber hpayload
    obtain rfl : r = ⟨2, .delimited value⟩ := by rw [← hnumber, ← hpayload]
    cases h
    exact replace_right_le (lengthUnless_le _ _)
  · cases h
    exact Nat.le_add_right _ _

end StructuredData

namespace AttributeValue

/-- The least number of bytes that a value can be read from. -/
def leastLength (v : AttributeValue) : Nat := v.shortest.record.encode.length

end AttributeValue

namespace AttributeMessage

/-- The least number of bytes that a message with its value can be read from. -/
def leastLength (m : AttributeMessage) : Nat := (m.value.map AttributeValue.leastLength).getD 0

/-- The length of the held timestamp, if one is held. -/
def heldTimestampLength (m : AttributeMessage) : Option Nat :=
  match m.value with
  | some (.timestamp t) => some t.shortest.encode.length
  | _ => none

theorem length_heldTimestamp (m : AttributeMessage) :
    m.heldTimestamp.shortest.encode.length = m.heldTimestampLength.getD 0 := by
  obtain ⟨_ | v, unknown⟩ := m
  · exact Timestamp.length_shortest_zero
  · cases v with
    | timestamp t => rfl
    | _ => exact Timestamp.length_shortest_zero

theorem framedIfHeld_heldTimestampLength_le (m : AttributeMessage) :
    framedIfHeld AttributeKind.timestamp.fieldNumber m.heldTimestampLength ≤ m.leastLength := by
  obtain ⟨_ | v, unknown⟩ := m
  · exact Nat.zero_le _
  · cases v with
    | timestamp t => exact Nat.le_of_eq (length_encode_delimited _ _).symm
    | _ => exact Nat.zero_le _

/-- **A value is not longer than the records that it is read from.** -/
theorem leastLength_le_of_apply {m m' : AttributeMessage} {r : Record}
    (h : m.apply depth r = some m') : m'.leastLength ≤ m.leastLength + r.encode.length := by
  -- a value that is not merged is at most its own record
  have hvalue {v : AttributeValue} (hv : v.leastLength ≤ r.encode.length) :
      ({ m with value := some v } : AttributeMessage).leastLength
        ≤ m.leastLength + r.encode.length := Nat.le_trans hv (Nat.le_add_left _ _)
  rw [apply] at h
  split at h
  case h_1 v hnumber hpayload =>
    obtain rfl : r = ⟨1, .varint v⟩ := by rw [← hnumber, ← hpayload]
    cases h
    refine hvalue (length_encode_varint_mono ?_)
    by_cases hv : v = 0
    · simp [hv]
    · simp only [ne_eq, hv, not_false_eq_true, decide_true, if_true]
      omega
  case h_2 v hnumber hpayload =>
    obtain rfl : r = ⟨2, .varint v⟩ := by rw [← hnumber, ← hpayload]
    rw [← Option.some.inj h]
    exact hvalue (length_encode_varint_mono (Varint.ofInt_low32_toInt32_le v))
  case h_4 bytes hnumber hpayload =>
    obtain rfl : r = ⟨4, .delimited bytes⟩ := by rw [← hnumber, ← hpayload]
    cases h
    exact hvalue (Nat.le_refl _)
  case h_7 bytes hnumber hpayload =>
    obtain rfl : r = ⟨7, .delimited bytes⟩ := by rw [← hnumber, ← hpayload]
    obtain ⟨t, ht, rfl⟩ := Option.map_eq_some_iff.mp h
    have hmerged := measure_le_of_mergeMessage Timestamp.length_shortest_le_of_apply ht
    rw [length_heldTimestamp] at hmerged
    calc
      _ = framedIfHeld 7 (some t.shortest.encode.length) := length_encode_delimited 7 _
      _ ≤ framedIfHeld 7 m.heldTimestampLength + framedLength 7 bytes.length :=
        framedIfHeld_le hmerged
      _ ≤ m.leastLength + (⟨7, .delimited bytes⟩ : Record).encode.length := by
        rw [length_encode_delimited]
        exact Nat.add_le_add_right (framedIfHeld_heldTimestampLength_le m) _
  case h_8 =>
    cases h
    exact Nat.le_add_right _ _
  all_goals
    rename_i bytes hnumber hpayload
    obtain ⟨text, htext, rfl⟩ := Option.map_eq_some_iff.mp h
    refine hvalue (Nat.le_of_eq ?_)
    obtain ⟨number, payload⟩ := r
    simp only at hnumber hpayload
    subst hnumber hpayload
    exact length_text_eq htext

end AttributeMessage

/-- The least number of bytes that the body of an entry can be read from. -/
def leastBodyLength (entry : String × AttributeMessage) : Nat :=
  lengthUnless (entry.1 = "") ⟨1, .delimited (Bytes.ofText entry.1)⟩
    + framedIfHeld 2 (entry.2.value.map AttributeValue.leastLength)

theorem EntryMessage.leastBodyLength_le_of_apply {m m' : EntryMessage} {r : Record}
    (h : m.apply depth r = some m') :
    leastBodyLength (m'.key, m'.value) ≤ leastBodyLength (m.key, m.value) + r.encode.length := by
  rw [apply] at h
  split at h
  case h_1 bytes hnumber hpayload =>
    obtain rfl : r = ⟨1, .delimited bytes⟩ := by rw [← hnumber, ← hpayload]
    obtain ⟨key, htext, rfl⟩ := Option.map_eq_some_iff.mp h
    exact replace_left_le (lengthUnless_text_le htext)
  case h_2 bytes hnumber hpayload =>
    obtain rfl : r = ⟨2, .delimited bytes⟩ := by rw [← hnumber, ← hpayload]
    obtain ⟨value, hmerge, rfl⟩ := Option.map_eq_some_iff.mp h
    have hvalue := measure_le_of_mergeMessage AttributeMessage.leastLength_le_of_apply hmerge
    have hframed : framedIfHeld 2 (value.value.map AttributeValue.leastLength)
        ≤ framedIfHeld 2 (m.value.value.map AttributeValue.leastLength)
          + framedLength 2 bytes.length := framedIfHeld_le hvalue
    rw [length_encode_delimited, leastBodyLength, leastBodyLength, Nat.add_assoc]
    exact Nat.add_le_add_left hframed _
  case h_3 =>
    cases h
    exact Nat.le_add_right _ _

/-- The least number of bytes that an entry can be read from. -/
def leastEntryLength (entry : String × AttributeMessage) : Nat :=
  framedLength attributesField (leastBodyLength entry)

theorem EntryMessage.leastEntryLength_le_of_parse {body : Bytes} {entry : EntryMessage}
    (h : EntryMessage.parse depth body = some entry) :
    leastEntryLength (entry.key, entry.value) ≤ framedLength attributesField body.length := by
  have hempty : leastBodyLength ("", {}) = 0 := by decide +kernel
  have hbody := measure_le_of_mergeMessage
    (f := fun m : EntryMessage => leastBodyLength (m.key, m.value)) leastBodyLength_le_of_apply h
  rw [hempty, Nat.zero_add] at hbody
  exact framedLength_mono hbody

/-- Writing an entry adds at most the entry. -/
theorem NameMap.sum_insert_le {α : Type} (weight : String × α → Nat) (name : String) (value : α)
    (m : NameMap α) :
    ((insert name value m).map weight).sum ≤ (m.map weight).sum + weight (name, value) := by
  induction m with
  | nil => simp [insert]
  | cons entry rest ih =>
    rw [insert]
    split
    · simp only [List.map_cons, List.sum_cons]
      omega
    · simp only [List.map_cons, List.sum_cons]
      omega

namespace EventMessage

/-- The least number of bytes that an event can be read from. -/
def leastLength (m : EventMessage) : Nat :=
  (encodeRecords (textRecords .id m.id)).length
    + (encodeRecords (textRecords .source m.source)).length
    + (encodeRecords (textRecords .specVersion m.specVersion)).length
    + (encodeRecords (textRecords .type m.type)).length
    + (m.attributes.map leastEntryLength).sum
    + (m.data.map fun d => d.record.encode.length).getD 0

theorem leastLength_setRequired_le (m : EventMessage) (field : RequiredField) {bytes : Bytes}
    {text : String} (h : Bytes.toText? bytes = some text) :
    (m.setRequired field text).leastLength
      ≤ m.leastLength + (⟨field.fieldNumber, .delimited bytes⟩ : Record).encode.length := by
  have hfield : (encodeRecords (textRecords field text)).length
      ≤ (⟨field.fieldNumber, .delimited bytes⟩ : Record).encode.length := lengthUnless_text_le h
  cases field <;>
    · simp only [leastLength, setRequired]
      omega

theorem leastLength_insert_le (m : EventMessage) (name : String) (value : AttributeMessage) :
    ({ m with attributes := m.attributes.insert name value } : EventMessage).leastLength
      ≤ m.leastLength + leastEntryLength (name, value) := by
  have hsum := NameMap.sum_insert_le leastEntryLength name value m.attributes
  simp only [leastLength]
  omega

theorem leastLength_setData_le (m : EventMessage) {d : EventData} {n : Nat}
    (h : d.record.encode.length ≤ (m.data.map fun d => d.record.encode.length).getD 0 + n) :
    ({ m with data := some d } : EventMessage).leastLength ≤ m.leastLength + n := by
  simp only [leastLength, Option.map_some, Option.getD_some]
  omega

/-- The length of the held typed message, if one is held. -/
def heldStructuredLength (m : EventMessage) : Option Nat :=
  match m.data with
  | some (.structured s) => some s.encode.length
  | _ => none

theorem length_heldStructured (m : EventMessage) :
    m.heldStructured.encode.length = m.heldStructuredLength.getD 0 := by
  obtain ⟨id, source, specVersion, type, attributes, data, unknown⟩ := m
  rcases data with _ | _ | _ | _ <;> rfl

theorem framedIfHeld_heldStructuredLength_le (m : EventMessage) :
    framedIfHeld DataKind.structured.fieldNumber m.heldStructuredLength
      ≤ (m.data.map fun d => d.record.encode.length).getD 0 := by
  obtain ⟨id, source, specVersion, type, attributes, data, unknown⟩ := m
  rcases data with _ | _ | _ | s
  · exact Nat.zero_le _
  · exact Nat.zero_le _
  · exact Nat.zero_le _
  · exact Nat.le_of_eq (length_encode_delimited _ _).symm

/-- **An event is not longer than the records that it is read from.** -/
theorem leastLength_le_of_apply {m m' : EventMessage} {r : Record}
    (h : m.apply depth r = some m') : m'.leastLength ≤ m.leastLength + r.encode.length := by
  rw [apply] at h
  split at h
  case h_1 bytes hnumber hpayload =>
    obtain rfl : r = ⟨1, .delimited bytes⟩ := by rw [← hnumber, ← hpayload]
    obtain ⟨text, htext, rfl⟩ := Option.map_eq_some_iff.mp h
    exact leastLength_setRequired_le m .id htext
  case h_2 bytes hnumber hpayload =>
    obtain rfl : r = ⟨2, .delimited bytes⟩ := by rw [← hnumber, ← hpayload]
    obtain ⟨text, htext, rfl⟩ := Option.map_eq_some_iff.mp h
    exact leastLength_setRequired_le m .source htext
  case h_3 bytes hnumber hpayload =>
    obtain rfl : r = ⟨3, .delimited bytes⟩ := by rw [← hnumber, ← hpayload]
    obtain ⟨text, htext, rfl⟩ := Option.map_eq_some_iff.mp h
    exact leastLength_setRequired_le m .specVersion htext
  case h_4 bytes hnumber hpayload =>
    obtain rfl : r = ⟨4, .delimited bytes⟩ := by rw [← hnumber, ← hpayload]
    obtain ⟨text, htext, rfl⟩ := Option.map_eq_some_iff.mp h
    exact leastLength_setRequired_le m .type htext
  case h_5 body hnumber hpayload =>
    obtain rfl : r = ⟨5, .delimited body⟩ := by rw [← hnumber, ← hpayload]
    obtain ⟨entry, hentry, rfl⟩ := Option.map_eq_some_iff.mp h
    rw [addEntry]
    split
    · refine Nat.le_trans (leastLength_insert_le m entry.key entry.value) ?_
      rw [length_encode_delimited]
      exact Nat.add_le_add_left (EntryMessage.leastEntryLength_le_of_parse hentry) _
    · exact Nat.le_add_right _ _
  case h_6 bytes hnumber hpayload =>
    obtain rfl : r = ⟨6, .delimited bytes⟩ := by rw [← hnumber, ← hpayload]
    cases h
    exact leastLength_setData_le m (Nat.le_add_left _ _)
  case h_7 bytes hnumber hpayload =>
    obtain rfl : r = ⟨7, .delimited bytes⟩ := by rw [← hnumber, ← hpayload]
    obtain ⟨text, htext, rfl⟩ := Option.map_eq_some_iff.mp h
    refine leastLength_setData_le m (Nat.le_trans (Nat.le_of_eq ?_) (Nat.le_add_left _ _))
    exact length_text_eq htext
  case h_8 body hnumber hpayload =>
    obtain rfl : r = ⟨8, .delimited body⟩ := by rw [← hnumber, ← hpayload]
    obtain ⟨s, hs, rfl⟩ := Option.map_eq_some_iff.mp h
    have hmerged := measure_le_of_mergeMessage StructuredData.length_encode_le_of_apply hs
    rw [length_heldStructured] at hmerged
    refine leastLength_setData_le m ?_
    calc
      _ = framedIfHeld 8 (some s.encode.length) := length_encode_delimited 8 _
      _ ≤ framedIfHeld 8 m.heldStructuredLength + framedLength 8 body.length :=
        framedIfHeld_le hmerged
      _ ≤ _ := by
        rw [length_encode_delimited]
        exact Nat.add_le_add_right (framedIfHeld_heldStructuredLength_le m) _
  case h_9 =>
    cases h
    exact Nat.le_add_right _ _

/-- What an event is read from is at least as long as its least length. -/
theorem leastLength_le_of_parse {body : Bytes} {m : EventMessage}
    (h : parse depth body = some m) : m.leastLength ≤ body.length := by
  have hempty : ({} : EventMessage).leastLength = 0 := by decide +kernel
  have hle := measure_le_of_mergeMessage leastLength_le_of_apply h
  rwa [hempty, Nat.zero_add] at hle

end EventMessage

/-! ### Written forms -/

namespace AttributeValue

/-- Only negative integers are not written as short as they can be. -/
def isNegative : AttributeValue → Bool
  | integer i => i < 0
  | _ => false

theorem shortest_eq_self {v : AttributeValue} (hv : v.Valid) (h : v.isNegative = false) :
    v.shortest = v := by
  cases v with
  | integer i =>
    have hpos : 0 ≤ i := by simpa [isNegative] using h
    have hmax : i ≤ 2147483647 := hv.2
    have hlow : Varint.low32 i = i := by
      refine Int.emod_eq_of_lt hpos (Int.lt_of_le_of_lt hmax ?_)
      decide
    rw [shortest, hlow]
  | timestamp t =>
    have hlow : Varint.low32 t.nanos = t.nanos := by
      refine Int.emod_eq_of_lt hv.nanos_nonneg (Int.lt_trans hv.nanos_lt ?_)
      decide
    rw [shortest, Timestamp.shortest, hlow]
  | _ => rfl

/-- A negative integer is written with ten bytes behind its tag and read from five. -/
theorem length_record_of_negative {i : Int} (hv : (integer i : AttributeValue).Valid) (h : i < 0) :
    (integer i).record.encode.length = 11 ∧ (integer i).leastLength = 6 := by
  have hmin : -2147483648 ≤ i := hv.1
  have hlength (n : Nat) : (⟨2, .varint n⟩ : Record).encode.length
      = (Varint.encode n).length + 1 := by
    show (Varint.encode 16 ++ Varint.encode n).length = _
    rw [List.length_append, Varint.length_encode_of_lt (by decide), Nat.add_comm]
  have hwritten := Varint.length_encode_ofInt (by omega) h
  have hleast := Varint.length_encode_low32 hmin h
  constructor
  · exact (hlength _).trans (congrArg (· + 1) hwritten)
  · exact (hlength _).trans (congrArg (· + 1) hleast)

theorem framedLength_record_le {v : AttributeValue} (hv : v.Valid) :
    framedLength 2 v.record.encode.length
      ≤ framedLength 2 v.leastLength + if v.isNegative then 5 else 0 := by
  cases hnegative : v.isNegative with
  | false =>
    rw [leastLength, shortest_eq_self hv hnegative]
    exact Nat.le_refl _
  | true =>
    cases v with
    | integer i =>
      have hneg : i < 0 := by simpa [isNegative] using hnegative
      obtain ⟨hwritten, hleast⟩ := length_record_of_negative hv hneg
      rw [hwritten, hleast]
      decide +kernel
    | _ => cases hnegative

end AttributeValue

theorem length_attributeRecord_le {entry : String × AttributeValue} (hname : entry.1 ≠ "")
    (hv : entry.2.Valid) :
    (attributeRecord entry).encode.length
      ≤ leastEntryLength (entry.1, { value := some entry.2 })
        + if entry.2.isNegative then 6 else 0 := by
  obtain ⟨name, v⟩ := entry
  -- the body grows by the five bytes of the value, and its length by one byte at most
  have hbody : (entryBody name { value := some v }).length
      ≤ leastBodyLength (name, { value := some v }) + if v.isNegative then 5 else 0 := by
    have hvalue := AttributeValue.framedLength_record_le hv
    have hencode : AttributeMessage.encode { value := some v } = v.record.encode :=
      encodeRecords_singleton v.record
    have hwritten : (entryBody name { value := some v }).length
        = (⟨1, .delimited (Bytes.ofText name)⟩ : Record).encode.length
          + framedLength 2 v.record.encode.length := by
      rw [entryBody, encodeRecords, List.flatMap_cons, List.length_append, ← encodeRecords,
        encodeRecords_singleton, length_encode_delimited 2, hencode]
    have hleast : leastBodyLength (name, { value := some v })
        = (⟨1, .delimited (Bytes.ofText name)⟩ : Record).encode.length
          + framedLength 2 v.leastLength := by
      rw [leastBodyLength, lengthUnless, if_neg hname, encodeRecords_singleton]
      rfl
    rw [hwritten, hleast, Nat.add_assoc]
    exact Nat.add_le_add_left hvalue _
  have hlength : (attributeRecord (name, v)).encode.length
      = framedLength attributesField (entryBody name { value := some v }).length :=
    length_encode_delimited _ _
  rw [hlength, leastEntryLength]
  refine Nat.le_trans (framedLength_mono hbody) ?_
  cases v.isNegative with
  | false => exact Nat.le_refl _
  | true => exact framedLength_add_small_le attributesField _ (by decide)

namespace EventMessage

theorem length_encode (m : EventMessage) :
    m.encode.length = (encodeRecords (textRecords .id m.id)).length
      + (encodeRecords (textRecords .source m.source)).length
      + (encodeRecords (textRecords .specVersion m.specVersion)).length
      + (encodeRecords (textRecords .type m.type)).length
      + (m.attributes.map fun entry => (entryRecord entry).encode.length).sum
      + (m.data.map fun d => d.record.encode.length).getD 0 := by
  have hentries : (encodeRecords (m.attributes.map entryRecord)).length
      = (m.attributes.map fun entry => (entryRecord entry).encode.length).sum := by
    rw [encodeRecords, List.length_flatMap, List.map_map]
    rfl
  have hdata : (encodeRecords (m.data.map EventData.record).toList).length
      = (m.data.map fun d => d.record.encode.length).getD 0 := by
    cases m.data with
    | none => rfl
    | some d => exact congrArg List.length (encodeRecords_singleton d.record)
  simp only [encode, records, encodeRecords_append, List.length_append, hentries, hdata]

/-- The order of the entries is no matter of length. -/
theorem length_encode_arranged (m : EventMessage) (order : EntryOrder) :
    (m.arranged order).encode.length = m.encode.length := by
  have hsum := ((order.perm m.attributes).map
    fun entry => (entryRecord entry).encode.length).sum_nat
  rw [length_encode, length_encode, arranged, hsum]

end EventMessage

/-- The number of attributes of an event that are negative integers. -/
def Event.negativeIntegers (e : Event) : Nat := e.attributes.countP fun entry => entry.2.isNegative

/-- Attributes are written as short as they can be, up to six bytes for each negative integer. -/
theorem sum_length_attributeRecord_le {entries : NameMap AttributeValue}
    (hnames : ∀ name ∈ entries.names, name ≠ "") (hvalues : ∀ entry ∈ entries, entry.2.Valid) :
    (entries.map fun entry => (attributeRecord entry).encode.length).sum
      ≤ (entries.map fun entry => leastEntryLength (entry.1, { value := some entry.2 })).sum
        + 6 * entries.countP fun entry => entry.2.isNegative := by
  induction entries with
  | nil => exact Nat.le_refl _
  | cons entry rest ih =>
    obtain ⟨hname, hrestnames⟩ := List.forall_mem_cons.mp hnames
    obtain ⟨hv, hrestvalues⟩ := List.forall_mem_cons.mp hvalues
    have hentry := length_attributeRecord_le hname hv
    have hrest := ih hrestnames hrestvalues
    rw [List.map_cons, List.map_cons, List.sum_cons, List.sum_cons, List.countP_cons]
    cases hnegative : entry.2.isNegative with
    | false =>
      rw [hnegative, if_neg Bool.false_ne_true] at hentry
      rw [if_neg Bool.false_ne_true]
      omega
    | true =>
      rw [hnegative, if_pos rfl] at hentry
      rw [if_pos rfl]
      omega

/-- **A written form is as short as it can be**, up to six bytes for each negative integer. -/
theorem Event.length_encode_le {e : Event} (h : e.Valid) :
    (EventMessage.ofEvent e).encode.length
      ≤ (EventMessage.ofEvent e).leastLength + 6 * e.negativeIntegers := by
  have hentries := sum_length_attributeRecord_le h.name_ne_empty h.value_valid
  have hwritten : ((EventMessage.ofEvent e).attributes.map
        fun entry => (entryRecord entry).encode.length).sum
      = (e.attributes.map fun entry => (attributeRecord entry).encode.length).sum := by
    rw [EventMessage.ofEvent, List.map_map]
    rfl
  have hleast : ((EventMessage.ofEvent e).attributes.map leastEntryLength).sum
      = (e.attributes.map fun entry =>
          leastEntryLength (entry.1, { value := some entry.2 })).sum := by
    rw [EventMessage.ofEvent, List.map_map]
    rfl
  rw [EventMessage.length_encode, EventMessage.leastLength, hwritten, hleast, negativeIntegers]
  omega

/-- Written again, what was read is at most six bytes longer for each negative integer. -/
theorem Codec.length_arranged_le {c : Codec} {bytes : Bytes} {e : Event}
    (h : c.decode bytes = .ok e) (order : EntryOrder) :
    ((({} : EventMessage).fill e).arranged order).encode.length
      ≤ bytes.length + 6 * e.negativeIntegers := by
  obtain ⟨-, hparse, hvalid⟩ := decode_eq_ok_iff.mp h
  have hleast := EventMessage.leastLength_le_of_parse hparse
  have hwritten := Event.length_encode_le hvalid
  rw [EventMessage.length_encode_arranged, EventMessage.fill_eq_ofEvent hvalid.names_nodup]
  omega

/-- **Relaying.** An accepted message can be written again, in any order of its entries, with at
most six bytes more for each attribute that is a negative integer: a reader takes such an integer
from five bytes, and a writer spends ten and may need a longer length for the entry. Nothing else
grows, however the message was written. Without negative integers it can be written under the limit
under which it was accepted, and is read back as the same event, as long as it stays below 2 GiB,
which is where the wire format itself ends. -/
theorem Codec.length_reencoded_le {c : Codec} {bytes : Bytes} {e : Event}
    (h : c.decode bytes = .ok e) :
    c.encode e = c.encodeInOrder c.entryOrder e ∧ ∀ order : EntryOrder,
      let relayed := ((({} : EventMessage).fill e).arranged order).encode
      relayed.length ≤ bytes.length + 6 * e.negativeIntegers
      ∧ (e.negativeIntegers = 0 → c.encodeInOrder order e = .ok relayed
        ∧ (relayed.length ≤ maxLength → ∃ e', c.decode relayed = .ok e' ∧ e'.Same e)) := by
  obtain ⟨hsize, hparse, hvalid⟩ := decode_eq_ok_iff.mp h
  refine ⟨encode_eq_encodeInOrder c e, fun order => ?_⟩
  intro relayed
  have hlength : relayed.length ≤ bytes.length + 6 * e.negativeIntegers :=
    length_arranged_le h order
  refine ⟨hlength, fun hnone => ?_⟩
  have hle : relayed.length ≤ c.maxMessageSize := by
    rw [hnone] at hlength
    omega
  refine ⟨bounded_eq_ok_iff.mpr ⟨hle, rfl⟩, fun hwire => ?_⟩
  obtain ⟨e', hmessage, hvalid', hsame⟩ := order.exists_arranged_eq hvalid
  simp only [relayed, hmessage] at hle hwire ⊢
  refine ⟨e', decode_eq_ok_iff.mpr ⟨hle, ?_, hvalid'⟩, hsame⟩
  exact EventMessage.parse_encode hvalid'.names_nodup hvalid'.value_valid
    hwire

/-- A negative integer of five bytes, in an entry whose length is the last that fits a byte: the
message grows by six bytes, and so it no longer fits the limit. And a message with a superseded
text, a padded length and an integer that comes twice, which is relayed under the limit that it just
meets. -/
theorem Codec.length_reencoded_le_tight :
    let c : Codec := { maxMessageSize := 143, deterministic := false }
    let texts : Bytes := [0x0A, 1, 0x31, 0x12, 1, 0x2F, 0x1A, 3, 0x31, 0x2E, 0x30, 0x22, 1, 0x74]
    let negative : Event :=
      { id := "1", source := "/", specVersion := "1.0", type := "t"
        attributes := [(String.ofList (List.replicate 117 'x'), .integer (-1))] }
    let bytes : Bytes := texts ++ [0x2A, 127, 0x0A, 117] ++ List.replicate 117 0x78
      ++ [0x12, 6, 0x10, 0xFF, 0xFF, 0xFF, 0xFF, 0x0F]
    let positive : Event :=
      { id := "1", source := "/", specVersion := "1.0", type := "t"
        attributes := [("n", .integer 5)] }
    let padded : Bytes := [0x0A, 0x81, 0, 0x30] ++ texts
      ++ [0x2A, 9, 0x0A, 1, 0x6E, 0x12, 4, 0x10, 1, 0x10, 5]
    let c' : Codec := { maxMessageSize := 29 }
    c.decode bytes = .ok negative ∧ bytes.length = 143 ∧ negative.negativeIntegers = 1
      ∧ (EventMessage.ofEvent negative).encode.length ≤ 149
      ∧ c.encode negative = .error [.encodedSize 149 143]
      ∧ c'.decode padded = .ok positive ∧ padded.length = 29 ∧ ∃ relayed,
        c'.encode positive = .ok relayed ∧ relayed.length ≤ 29
        ∧ ∃ e, c'.decode relayed = .ok e ∧ e.Same positive := by
  intro c texts negative bytes positive padded c'
  have hbytes : c.decode bytes = .ok negative := by decide +kernel
  have hpadded : c'.decode padded = .ok positive := by decide +kernel
  obtain ⟨-, hnegative⟩ := length_reencoded_le hbytes
  obtain ⟨hencode, hpositive⟩ := length_reencoded_le hpadded
  have hgrown := (hnegative .asInserted).1
  obtain ⟨hlength, hrelay⟩ := hpositive c'.entryOrder
  obtain ⟨hwritten, hread⟩ := hrelay rfl
  refine ⟨hbytes, by decide +kernel, by decide, hgrown, ?_, hpadded, by decide, _,
    hencode.trans hwritten, hlength, hread (Nat.le_trans hlength (by decide))⟩
  decide +kernel

end CloudEvents
