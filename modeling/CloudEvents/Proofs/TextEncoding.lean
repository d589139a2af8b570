import CloudEvents.Proofs.BatchEncoding

/-!
# Encoding events of code points

A caller's event may hold a text that no string is, because there is a surrogate in it. Such an
event breaks no rule of the event model, and yet nothing can be written of it: encoding it is
refused whatever the limit, and the report is none about the event. Every other event is an event of
strings under another name, and what is known of encoding those holds of it unchanged.

So both results below have two halves. One surrogate, in any text of an event or of a batch, gives
the refusal; without one, the round trip of `Codec.decode_encodeInOrder` and the frames of
`Codec.encodeBatch_eq_frames` are what there is to say.

## Main results

* `Codec.encodePoints_round_trip` — encoding any valid event, and reading it back
* `Codec.encodeBatchPoints_frames` — encoding any batch of valid events
-/

namespace CloudEvents

/-! ### Events without a surrogate -/

theorem Event.exists_inCodePoints {e : Event CodePoints} (h : e.Valid)
    (hnone : ¬ e.HoldsSurrogate) :
    ∃ e' : Event, e = e'.inCodePoints ∧ e'.Valid := by
  obtain ⟨e', he'⟩ := Option.ne_none_iff_exists'.mp (mt inStrings?_eq_none_iff.mp hnone)
  obtain rfl := inStrings?_eq_some_iff.mp he'
  exact ⟨e', rfl, valid_inCodePoints_iff.mp h⟩

theorem Batch.exists_inCodePoints {b : Batch CodePoints} (h : ∀ e ∈ b.events, e.Valid)
    (hnone : ¬ b.HoldsSurrogate) :
    ∃ b' : Batch, b = b'.inCodePoints ∧ ∀ e ∈ b'.events, e.Valid := by
  obtain ⟨b', hb'⟩ := Option.ne_none_iff_exists'.mp (mt inStrings?_eq_none_iff.mp hnone)
  obtain rfl := inStrings?_eq_some_iff.mp hb'
  exact ⟨b', rfl, fun e he => Event.valid_inCodePoints_iff.mp (h _ (List.mem_map_of_mem he))⟩

namespace Codec

variable (c : Codec) (order : EntryOrder)

/-- The encoding of an event of code points under an order of the serializer's own. -/
def encodePointsInOrder (e : Event CodePoints) : Except Error Bytes :=
  match e.inStrings? with
  | some e => (c.encodeInOrder order e).mapError .invalid
  | none => .error (.misuse .surrogate)

theorem encodePoints_eq_encodePointsInOrder (e : Event CodePoints) :
    c.encodePoints e = c.encodePointsInOrder c.entryOrder e := by
  rw [encodePoints, encodePointsInOrder]
  cases e.inStrings? with
  | none => rfl
  | some e => exact congrArg (Except.mapError Error.invalid) (encode_eq_encodeInOrder c e)

variable {c order}

/-! ### Single events -/

theorem encodePointsInOrder_of_holdsSurrogate {e : Event CodePoints} (h : e.HoldsSurrogate) :
    c.encodePointsInOrder order e = .error (.misuse .surrogate) := by
  rw [encodePointsInOrder, Event.inStrings?_eq_none_iff.mpr h]

theorem encodePointsInOrder_inCodePoints (e : Event) :
    c.encodePointsInOrder order e.inCodePoints = (c.encodeInOrder order e).mapError .invalid := by
  rw [encodePointsInOrder, Event.inStrings?_eq_some_iff.mpr rfl]

theorem encodePoints_inCodePoints (e : Event) :
    c.encodePoints e.inCodePoints = (c.encode e).mapError .invalid := by
  rw [encodePoints, Event.inStrings?_eq_some_iff.mpr rfl]

/-- **The round trip of any event.** An event that holds a surrogate is refused whatever order its
entries are written in, and the report is not that a rule is broken. Every other valid event is one
of strings: encoding it fails exactly when the encoding is longer than the codec allows, with that
report alone, and what encoding returns is read back as the same event, as long as it keeps below
the 2 GiB at which the wire format itself ends. -/
theorem encodePoints_round_trip (c : Codec) {e : Event CodePoints} (h : e.Valid) :
    c.encodePoints e = c.encodePointsInOrder c.entryOrder e
    ∧ (e.HoldsSurrogate →
      ∀ order, c.encodePointsInOrder order e = .error (.misuse .surrogate))
    ∧ (¬ e.HoldsSurrogate → ∃ e₀ : Event, e = e₀.inCodePoints ∧ e₀.Valid ∧ ∀ order : EntryOrder,
      let size := ((({} : EventMessage).fill e₀).arranged order).encode.length
      (∀ err, c.encodePointsInOrder order e = .error err
        ↔ c.maxMessageSize < size ∧ err = .invalid [.encodedSize size c.maxMessageSize])
      ∧ (size ≤ maxLength → ∀ bytes, c.encodePointsInOrder order e = .ok bytes →
        ∃ e', c.decode bytes = .ok e' ∧ e'.Same e₀)) := by
  refine ⟨encodePoints_eq_encodePointsInOrder c e, fun hsurrogate order =>
    encodePointsInOrder_of_holdsSurrogate hsurrogate, fun hnone => ?_⟩
  obtain ⟨e₀, rfl, hvalid⟩ := Event.exists_inCodePoints h hnone
  refine ⟨e₀, rfl, hvalid, fun order => ?_⟩
  obtain ⟨herror, hok⟩ := (decode_encodeInOrder c hvalid).2 order
  rw [encodePointsInOrder_inCodePoints]
  refine ⟨fun err => ?_, fun hsize bytes hbytes => hok hsize bytes (mapError_eq_ok_iff.mp hbytes)⟩
  rw [mapError_eq_error_iff]
  simp only [herror]
  constructor
  · rintro ⟨_, ⟨hlarge, rfl⟩, rfl⟩
    exact ⟨hlarge, rfl⟩
  · rintro ⟨hlarge, rfl⟩
    exact ⟨_, ⟨hlarge, rfl⟩, rfl⟩

end Codec

/-- An event with an attribute of every kind, most of them at the value that is easiest to lose, and
a payload of which nothing is written but its presence. -/
def Event.everyKind : Event where
  id := "1"
  source := "/s"
  specVersion := "1.0"
  type := "é"
  attributes :=
    [("flag", .boolean false), ("count", .integer (-1)), ("text", .string ""), ("raw", .bytes []),
     ("uri", .uri "u"), ("ref", .uriRef "u"), ("time", .timestamp { seconds := 0 })]
  data := some (.structured { typeUrl := "" })

theorem Event.everyKind_valid : everyKind.Valid := by decide +kernel

namespace Codec

theorem encodePoints_round_trip_everyKind :
    let c : Codec := { maxMessageSize := 120 }
    let order : EntryOrder := ⟨List.reverse, List.reverse_perm⟩
    let e : Event CodePoints := Event.everyKind.inCodePoints
    e.Valid ∧ ∃ bytes, bytes.length = 111 ∧ c.encodePointsInOrder order e = .ok bytes
      ∧ ∃ e', c.decode bytes = .ok e' ∧ e'.Same .everyKind := by
  intro c order e
  have hvalid : e.Valid := Event.valid_inCodePoints_iff.mpr Event.everyKind_valid
  have hlength : ((({} : EventMessage).fill .everyKind).arranged order).encode.length = 111 := by
    decide +kernel
  have hstrings : c.encodeInOrder order .everyKind = .ok _ :=
    bounded_eq_ok_iff.mpr ⟨hlength ▸ (by decide), rfl⟩
  have hbytes := (encodePointsInOrder_inCodePoints _).trans (mapError_eq_ok_iff.mpr hstrings)
  obtain ⟨-, -, hnone⟩ := encodePoints_round_trip c hvalid
  obtain ⟨e₀, he, -, hround⟩ := hnone (Event.not_holdsSurrogate_inCodePoints _)
  obtain rfl : Event.everyKind = e₀ := Event.inCodePoints_inj.mp he
  exact ⟨hvalid, _, hlength, hbytes, (hround order).2 (hlength ▸ (by decide)) _ hbytes⟩

end Codec

/-- An event whose payload is a text of two surrogates, `DCC3` and `DCA9`. A program that reads the
bytes of an `é` where it expects a narrower encoding holds them as this text. -/
def Event.escaped : Event CodePoints where
  id := .ofString "1"
  source := .ofString "s"
  specVersion := .ofString "1.0"
  type := .ofString "t"
  data := some (.text [.surrogate 1219, .surrogate 1193])

theorem Event.escaped_valid : escaped.Valid where
  required_ne_empty f := by cases f <;> exact mt CodePoints.ofString_inj.mp (by decide)
  names_nodup := List.nodup_nil
  name_ne_empty := nofun
  name_not_reserved := nofun
  value_valid := nofun

theorem Event.escaped_holdsSurrogate : escaped.HoldsSurrogate :=
  ⟨[.surrogate 1219, .surrogate 1193], List.mem_append_right _ List.mem_cons_self, 1219,
    List.mem_cons_self⟩

namespace Codec

variable {c : Codec}

theorem encodePoints_escaped (c : Codec) :
    c.encodePoints .escaped = .error (.misuse .surrogate) := by
  rw [encodePoints_eq_encodePointsInOrder]
  exact encodePointsInOrder_of_holdsSurrogate Event.escaped_holdsSurrogate

/-- Encoding a valid event can fail with something else than broken rules. -/
theorem not_encodePoints_fails_invalid :
    Event.escaped.Valid ∧ ({} : Codec).encodePoints .escaped = .error (.misuse .surrogate)
    ∧ ¬ ∀ (c : Codec) (e : Event CodePoints), e.Valid →
      ∀ err, c.encodePoints e = .error err → ∃ violations, err = .invalid violations := by
  refine ⟨Event.escaped_valid, encodePoints_escaped _, fun h => ?_⟩
  obtain ⟨_, hinvalid⟩ := h {} _ Event.escaped_valid _ (encodePoints_escaped _)
  cases hinvalid

/-! ### Batches -/

theorem encodeBatchPoints_of_holdsSurrogate {b : Batch CodePoints} (h : b.HoldsSurrogate) :
    c.encodeBatchPoints b = .error (.misuse .surrogate) := by
  rw [encodeBatchPoints, Batch.inStrings?_eq_none_iff.mpr h]

theorem encodeBatchPoints_inCodePoints (b : Batch) :
    c.encodeBatchPoints b.inCodePoints = (c.encodeBatch b).mapError .invalid := by
  rw [encodeBatchPoints, Batch.inStrings?_eq_some_iff.mpr rfl]

/-- **Encoding any batch.** A batch that holds a surrogate is refused whatever the limit. Every
other batch of valid events is one of strings: a deterministic codec encodes it exactly when the
frames of the canonical encodings of its events do not exceed the limit, and then to these frames,
in order. Every event can be encoded as well, and the batch is read back, as long as no event
reaches the 2 GiB at which the wire format ends. Otherwise the size is reported, and nothing else.
-/
theorem encodeBatchPoints_frames (hc : c.deterministic = true) {b : Batch CodePoints}
    (h : ∀ e ∈ b.events, e.Valid) :
    (b.HoldsSurrogate → c.encodeBatchPoints b = .error (.misuse .surrogate))
    ∧ (¬ b.HoldsSurrogate → ∃ b₀ : Batch, b = b₀.inCodePoints ∧ (∀ e ∈ b₀.events, e.Valid) ∧
      let bytes := frames (b₀.events.map Event.canonicalEncoding)
      ((∃ result, c.encodeBatchPoints b = .ok result) ↔ bytes.length ≤ c.maxMessageSize)
      ∧ (bytes.length ≤ c.maxMessageSize →
        c.encodeBatchPoints b = .ok bytes
        ∧ (∀ e ∈ b₀.events, c.encodePoints e.inCodePoints = .ok e.canonicalEncoding)
        ∧ ((∀ e ∈ b₀.events, e.canonicalEncoding.length ≤ maxLength) →
          ∃ b', c.decodeBatch bytes = .ok b' ∧ b'.Same b₀))
      ∧ (c.maxMessageSize < bytes.length → c.encodeBatchPoints b
          = .error (.invalid [.encodedSize bytes.length c.maxMessageSize]))) := by
  refine ⟨encodeBatchPoints_of_holdsSurrogate, fun hnone => ?_⟩
  obtain ⟨⟨es⟩, rfl, hvalid⟩ := Batch.exists_inCodePoints h hnone
  refine ⟨⟨es⟩, rfl, hvalid, ?_⟩
  intro bytes
  obtain ⟨hiff, hfits, hlarge⟩ := encodeBatch_eq_frames hc hvalid
  simp only [encodeBatchPoints_inCodePoints, encodePoints_inCodePoints, mapError_eq_ok_iff]
  refine ⟨hiff, hfits, fun hsize => ?_⟩
  rw [hlarge hsize]
  rfl

/-- A batch of two events of which the first comes again at the end, under a limit that it just
keeps, and under one that it misses by a byte. -/
theorem encodeBatchPoints_frames_repeated :
    let e (id : String) : Event :=
      { id, source := "s", specVersion := "1.0", type := "t"
        attributes := [("a", .boolean false)] }
    let b : Batch := { events := [e "1", e "2", e "1"] }
    let c (limit : Nat) : Codec := { maxMessageSize := limit }
    (∃ bytes, (c 75).encodeBatchPoints b.inCodePoints = .ok bytes
      ∧ ∃ b', (c 75).decodeBatch bytes = .ok b' ∧ b'.Same b)
    ∧ (c 74).encodeBatchPoints b.inCodePoints = .error (.invalid [.encodedSize 75 74]) := by
  intro e b c
  have hstrings : ∀ e ∈ b.events, e.Valid := by decide +kernel
  have hvalid : ∀ e ∈ b.inCodePoints.events, e.Valid :=
    List.forall_mem_map.mpr fun e he => Event.valid_inCodePoints_iff.mpr (hstrings e he)
  have horder : ∀ e ∈ b.events, e.InWritingOrder e.attributes := by decide +kernel
  have hbytes : b.events.map Event.canonicalEncoding = b.events.map Layout.event :=
    List.map_congr_left fun e he => (horder e he).canonicalEncoding_eq (hstrings e he).names_nodup
  have hlength : (frames (b.events.map Event.canonicalEncoding)).length = 75 := by
    rw [hbytes]
    decide +kernel
  have hwire : ∀ e ∈ b.events, e.canonicalEncoding.length ≤ maxLength := by
    intro e he
    have hframe := length_le_frames (List.mem_map_of_mem (f := Event.canonicalEncoding) he)
    exact Nat.le_trans hframe (hlength ▸ (by decide))
  have hnone : ¬ b.inCodePoints.HoldsSurrogate := Batch.not_holdsSurrogate_inCodePoints b
  obtain ⟨b₀, hb, -, -, hok, -⟩ := (encodeBatchPoints_frames (c := c 75) rfl hvalid).2 hnone
  obtain rfl : b = b₀ := Batch.inCodePoints_inj.mp hb
  obtain ⟨b₀, hb, -, -, -, herror⟩ := (encodeBatchPoints_frames (c := c 74) rfl hvalid).2 hnone
  obtain rfl : b = b₀ := Batch.inCodePoints_inj.mp hb
  obtain ⟨hencode, -, hdecode⟩ := hok (Nat.le_of_eq hlength)
  refine ⟨⟨_, hencode, hdecode hwire⟩, ?_⟩
  rw [herror (by rw [hlength]; decide), hlength]

/-- Encoding a batch of valid events can fail with something else than broken rules. -/
theorem not_encodeBatchPoints_fails_invalid :
    let b : Batch CodePoints := { events := [Event.escaped] }
    (∀ e ∈ b.events, e.Valid) ∧ ({} : Codec).encodeBatchPoints b = .error (.misuse .surrogate)
    ∧ ¬ ∀ (c : Codec) (b : Batch CodePoints), (∀ e ∈ b.events, e.Valid) →
      ∀ err, c.encodeBatchPoints b = .error err → ∃ violations, err = .invalid violations := by
  intro b
  have hvalid : ∀ e ∈ b.events, e.Valid := List.forall_mem_singleton.mpr Event.escaped_valid
  have hsurrogate : b.HoldsSurrogate := ⟨_, List.mem_cons_self, Event.escaped_holdsSurrogate⟩
  refine ⟨hvalid, encodeBatchPoints_of_holdsSurrogate hsurrogate, fun h => ?_⟩
  obtain ⟨_, hinvalid⟩ := h {} b hvalid _ (encodeBatchPoints_of_holdsSurrogate hsurrogate)
  cases hinvalid

end Codec

end CloudEvents
