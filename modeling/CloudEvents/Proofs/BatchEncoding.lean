import CloudEvents.Proofs.BatchDecoding
import CloudEvents.Proofs.WireLayout

/-!
# Encoding a batch

A batch is written as the canonical encodings of its events, each in its frame, one after the other.
The events are not looked at together: none is left out because it was there before, and the only
thing that the batch has for itself is the limit, which counts for the whole. So a batch that can be
encoded is made of events that can be encoded, and the converse is a question of their sum.

Reading goes frame by frame, and every frame gives its event back. The one bound is that of the wire
format: an event of 2 GiB has no length that could be announced.

## Main results

* `BatchMessage.parse_frames_eq_some` — payloads that parse, parse together
* `Codec.encodeBatch_eq` — a batch is written as frames
* `Codec.decodeBatch_frames_canonicalEncoding` — written frames are read back
* `Codec.encodeBatch_eq_frames` — encoding and decoding a batch
-/

namespace CloudEvents

variable {depth : Nat}

/-! ### Frames that parse -/

theorem readRecords_frames {payloads : List Bytes}
    (h : ∀ payload ∈ payloads, payload.length ≤ maxLength) :
    readRecords depth [] (frames payloads) = some (payloads.map eventRecord) := by
  induction payloads with
  | nil => exact readRecords_nil depth
  | cons payload rest ih =>
    obtain ⟨hpayload, hrest⟩ := List.forall_mem_cons.mp h
    rw [frames, List.flatMap_cons, readRecords_frame_append, if_pos hpayload, ← frames, ih hrest]
    rfl

namespace BatchMessage

theorem foldlM_eventRecords {payloads : List Bytes} {events : List EventMessage}
    (h : payloads.map (EventMessage.parse (depth - 1)) = events.map some) (m : BatchMessage) :
    (payloads.map eventRecord).foldlM (apply depth) m
      = some { m with events := m.events ++ events } := by
  induction payloads generalizing events m with
  | nil =>
    obtain rfl : events = [] := List.map_eq_nil_iff.mp h.symm
    simp
  | cons payload rest ih =>
    cases events with
    | nil => cases h
    | cons event tail =>
      obtain ⟨hevent, htail⟩ := List.cons.inj h
      have hstep : m.apply depth (eventRecord payload)
          = some { m with events := m.events ++ [event] } := by
        show (EventMessage.parse (depth - 1) payload).map _ = _
        rw [hevent]
        rfl
      rw [List.map_cons, List.foldlM_cons, hstep]
      refine (ih htail _).trans ?_
      simp

/-- **Payloads that parse, parse together**, as long as each can announce its length. -/
theorem parse_frames_eq_some {payloads : List Bytes} {events : List EventMessage}
    (hlength : ∀ payload ∈ payloads, payload.length ≤ maxLength)
    (h : payloads.map (EventMessage.parse (depth - 1)) = events.map some) :
    BatchMessage.parse depth (frames payloads) = some { events } := by
  rw [parse, mergeMessage_of_readRecords (readRecords_frames hlength)]
  exact foldlM_eventRecords h {}

/-- A batch message is written as the frames of its events. -/
theorem encode_eq_frames (events : List EventMessage) :
    BatchMessage.encode { events } = frames (events.map EventMessage.encode) := by
  rw [encode, encodeRecords, records, frames, List.flatMap_map, List.flatMap_map]
  exact List.flatMap_congr fun event _ => (frame_eq_encode event.encode).symm

end BatchMessage

/-! ### Canonical encodings -/

/-- A canonical encoding is read back, with the attributes in the order in which they were written.
-/
theorem Event.parse_canonicalEncoding {e : Event} (h : e.Valid)
    (hlength : e.canonicalEncoding.length ≤ maxLength) :
    EventMessage.parse depth e.canonicalEncoding = some (.ofEvent e.sorted) := by
  have hsorted := valid_sorted h
  rw [canonicalEncoding_eq_encode h] at hlength ⊢
  exact EventMessage.parse_encode hsorted.names_nodup hsorted.value_valid hlength

/-- A batch is the same with the attributes of its events sorted. -/
theorem Batch.same_sorted {es : List Event} (h : ∀ e ∈ es, e.Valid) :
    Batch.Same { events := es.map Event.sorted } { events := es } where
  length_eq := List.length_map _
  event_same := by
    intro pair hpair
    have hzip : (es.map Event.sorted).zip es = es.map fun e => (e.sorted, e) := by
      conv_lhs => rw [← List.map_id es, List.map_map, List.zip_map']
      rfl
    rw [hzip] at hpair
    obtain ⟨e, he, rfl⟩ := List.mem_map.mp hpair
    exact Event.same_of_perm (h e he).names_nodup e.perm_sorted

namespace Codec

variable {c : Codec} {es : List Event}

theorem decode_canonicalEncoding {e : Event} (h : e.Valid)
    (hsize : e.canonicalEncoding.length ≤ c.maxMessageSize)
    (hlength : e.canonicalEncoding.length ≤ maxLength) :
    c.decode e.canonicalEncoding = .ok e.sorted :=
  decode_eq_ok_iff.mpr
    ⟨hsize, Event.parse_canonicalEncoding h hlength, Event.valid_sorted h⟩

/-! ### Batches -/

/-- A batch is written as the canonical encodings of its events, if they are not too long together.
-/
theorem encodeBatch_eq (hc : c.deterministic = true) (h : ∀ e ∈ es, e.Valid) :
    c.encodeBatch { events := es } = c.bounded (frames (es.map Event.canonicalEncoding)) := by
  have hencodings : (es.map c.message).map EventMessage.encode
      = es.map Event.canonicalEncoding := by
    rw [List.map_map]
    exact List.map_congr_left fun e he => encode_message hc (h e he)
  rw [encodeBatch, BatchMessage.encode_eq_frames, hencodings]

/-- **Written frames are read back**, every event in its place. -/
theorem decodeBatch_frames_canonicalEncoding (h : ∀ e ∈ es, e.Valid)
    (hsize : (frames (es.map Event.canonicalEncoding)).length ≤ c.maxMessageSize)
    (hlength : ∀ e ∈ es, e.canonicalEncoding.length ≤ maxLength) :
    c.decodeBatch (frames (es.map Event.canonicalEncoding))
      = .ok { events := es.map Event.sorted } := by
  have hparse : BatchMessage.parse maxDepth (frames (es.map Event.canonicalEncoding))
      = some { events := (es.map Event.sorted).map .ofEvent } := by
    refine BatchMessage.parse_frames_eq_some (List.forall_mem_map.mpr hlength) ?_
    rw [List.map_map, List.map_map, List.map_map]
    exact List.map_congr_left fun e he => Event.parse_canonicalEncoding (h e he) (hlength e he)
  have hdecode : (es.map Event.canonicalEncoding).map c.decode
      = (es.map Event.sorted).map .ok := by
    rw [List.map_map, List.map_map]
    refine List.map_congr_left fun e he => decode_canonicalEncoding (h e he) ?_ (hlength e he)
    exact Nat.le_trans (length_le_frames (List.mem_map_of_mem he)) hsize
  rw [decodeBatch_frames_eq_inOrder hsize hparse, hdecode, DecodeError.inOrder_ok]
  rfl

/-- **Encoding a batch.** A deterministic codec encodes a batch of valid events exactly when the
frames of their canonical encodings do not exceed its limit, and then to these frames, in order.
Every event can be encoded as well, and the batch is read back, as long as no event reaches the 2
GiB at which the wire format ends. Otherwise the size is reported, and nothing else. -/
theorem encodeBatch_eq_frames (hc : c.deterministic = true) (h : ∀ e ∈ es, e.Valid) :
    let bytes := frames (es.map Event.canonicalEncoding)
    ((∃ result, c.encodeBatch { events := es } = .ok result) ↔ bytes.length ≤ c.maxMessageSize)
    ∧ (bytes.length ≤ c.maxMessageSize →
      c.encodeBatch { events := es } = .ok bytes
      ∧ (∀ e ∈ es, c.encode e = .ok e.canonicalEncoding)
      ∧ ((∀ e ∈ es, e.canonicalEncoding.length ≤ maxLength) →
        ∃ b, c.decodeBatch bytes = .ok b ∧ b.Same { events := es }))
    ∧ (c.maxMessageSize < bytes.length →
      c.encodeBatch { events := es } = .error [.encodedSize bytes.length c.maxMessageSize]) := by
  intro bytes
  rw [encodeBatch_eq hc h]
  refine ⟨?_, fun hsize => ?_, fun hsize => bounded_eq_error_iff.mpr ⟨hsize, rfl⟩⟩
  · constructor
    · rintro ⟨result, hresult⟩
      exact (bounded_eq_ok_iff.mp hresult).1
    · intro hsize
      exact ⟨bytes, bounded_eq_ok_iff.mpr ⟨hsize, rfl⟩⟩
  · refine ⟨bounded_eq_ok_iff.mpr ⟨hsize, rfl⟩, fun e he => ?_, fun hlength => ?_⟩
    · refine (encode_eq_ok_iff hc (h e he)).mpr ⟨?_, rfl⟩
      exact Nat.le_trans (length_le_frames (List.mem_map_of_mem he)) hsize
    · exact ⟨_, decodeBatch_frames_canonicalEncoding h hsize fun e he =>
        hlength e he, Batch.same_sorted h⟩

end Codec

end CloudEvents
