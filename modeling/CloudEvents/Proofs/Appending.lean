import CloudEvents.Proofs.BatchDecoding
import CloudEvents.Proofs.DistinctForms
import CloudEvents.Proofs.RoundTrip

/-!
# One input after another

Reading two byte strings one after the other is reading their concatenation, on every level at which
records are merged. What that means depends on the message. Batches have one repeated field, so two
of them make one batch, and a failure in the second is the same failure further on. Events have
fields that replace each other, so what is appended to an event overrides it: its texts and its
attributes replace the earlier ones as a whole, while two typed payloads are merged field by field.

The first part need not be a written form. It is only ever used through the message that it parses
as, and `mergeMessage_append` goes on from there.

## Main definitions

* `BatchMessage.append`, `DecodeError.later` — the parts of two batches, and failures in the second
* `Event.overriddenBy` — an event with the fields of another one written over its own

## Main results

* `BatchMessage.parse_append`, `BatchMessage.toBatch_append` — parsing and interpreting two batches
* `Codec.decodeBatch_append` — decoding the concatenation of two batches
* `EventMessage.parse_append_encode` — the written form of an event after any message
* `Codec.decode_append_encoded` — decoding an event with another one appended
-/

namespace CloudEvents

variable {depth : Nat}

/-! ### Batches -/

/-- As many results come out as there are elements. -/
theorem length_eq_of_mapM_eq_ok {α β ε : Type} {f : α → Except ε β} {l : List α}
    {results : List β} (h : l.mapM f = .ok results) : results.length = l.length := by
  induction l generalizing results with
  | nil =>
    obtain rfl : [] = results := pure_eq_ok_iff.mp h
    rfl
  | cons a rest ih =>
    obtain ⟨b, tail, -, htail, rfl⟩ := mapM_cons_eq_ok_iff.mp h
    rw [List.length_cons, List.length_cons, ih htail]

/-- The failure of a batch that stands after `n` other events. A failure that has no position
belongs to the batch as a whole and gets none. -/
def DecodeError.later (n : Nat) (err : DecodeError) : DecodeError :=
  { err with index := err.index.map (n + ·) }

namespace BatchMessage

/-- The events of two batches, and what is unknown of either. -/
def append (m m' : BatchMessage) : BatchMessage where
  events := m.events ++ m'.events
  unknown := m.unknown ++ m'.unknown

@[simp] theorem append_empty (m : BatchMessage) : m.append {} = m := by
  simp [append]

/-- A record does nothing to the events that are there already. -/
theorem apply_append (m m' : BatchMessage) (r : Record) :
    (m.append m').apply depth r = (m'.apply depth r).map m.append := by
  rw [apply, apply]
  split
  · rw [Option.map_map]
    refine congrArg (Option.map · _) (funext fun event => ?_)
    simp [append]
  · simp [append]

/-- A batch after a batch is the batch of both, if it is one on its own. -/
theorem parse_append {front : Bytes} {m : BatchMessage} (h : parse depth front = some m)
    (back : Bytes) : parse depth (front ++ back) = (parse depth back).map m.append := by
  rw [parse, mergeMessage_append h, parse, ← mergeMessage_map (apply_append m), append_empty]

/-- Positions are counted from the first event of the batch. -/
theorem mapM_toEventAt_zipIdx (events : List EventMessage) (n : Nat) :
    (events.zipIdx n).mapM EventMessage.toEventAt
      = (events.zipIdx.mapM EventMessage.toEventAt).mapError (·.later n) := by
  have hlater (event : EventMessage × Nat) : EventMessage.toEventAt (event.1, n + event.2)
      = (EventMessage.toEventAt event).mapError (·.later n) := by
    rw [EventMessage.toEventAt, EventMessage.toEventAt]
    cases event.1.toEvent <;> rfl
  rw [List.zipIdx_eq_map_add, List.mapM_map, ← mapM_mapError]
  exact congrArg (List.mapM · _) (funext hlater)

/-- A batch that is interpreted holds nothing unknown and as many events as its message. -/
theorem exists_of_toBatch {m : BatchMessage} {x : Batch} (h : m.toBatch = .ok x) :
    m.unknown = [] ∧ m.events.zipIdx.mapM EventMessage.toEventAt = .ok x.events
      ∧ m.events.length = x.length := by
  rw [toBatch_eq] at h
  split at h
  · cases h
  · rename_i hunknown
    rw [unknownFault, Option.map_eq_none_iff, List.head?_eq_none_iff] at hunknown
    obtain ⟨events, hevents, rfl⟩ := map_eq_ok_iff.mp h
    have hlength := length_eq_of_mapM_eq_ok hevents
    rw [List.length_zipIdx] at hlength
    exact ⟨hunknown, hevents, hlength.symm⟩

/-- What is unknown in a batch, in whatever form, is a malformed envelope. -/
theorem rejection_of_unknownFault {m : BatchMessage} {fault : Fault}
    (h : m.unknownFault = some fault) : fault.rejection = .malformedEnvelope := by
  obtain ⟨r, -, rfl⟩ := Option.map_eq_some_iff.mp h
  split <;> rfl

/-- **Interpreting two batches.** After a batch without a fault the second one comes out as it does
on its own, its events after those of the first and its failure as many places later. -/
theorem toBatch_append {m : BatchMessage} {x : Batch} (h : m.toBatch = .ok x)
    (m' : BatchMessage) :
    (m.append m').toBatch
      = (m'.toBatch.mapError (·.later x.length)).map fun y =>
          { events := x.events ++ y.events } := by
  obtain ⟨hunknown, hevents, hlength⟩ := exists_of_toBatch h
  have hfault : (m.append m').unknownFault = m'.unknownFault := by
    rw [unknownFault, append, hunknown, List.nil_append]
    rfl
  have hzip : (m.append m').events.zipIdx
      = m.events.zipIdx ++ m'.events.zipIdx x.length := by
    rw [append, List.zipIdx_append, Nat.zero_add, hlength]
  rw [toBatch_eq, toBatch_eq, hfault]
  cases m'.unknownFault with
  | some fault => rfl
  | none =>
    show ((m.append m').events.zipIdx.mapM EventMessage.toEventAt).map _ = _
    rw [hzip, List.mapM_append, hevents, mapM_toEventAt_zipIdx m'.events x.length]
    cases m'.events.zipIdx.mapM EventMessage.toEventAt <;> rfl

end BatchMessage

namespace Codec

variable {c : Codec}

/-- A failure without a position is one of the batch as a whole. -/
theorem rejection_of_decodeBatch {bytes : Bytes} {err : DecodeError}
    (h : c.decodeBatch bytes = .error err) (hindex : err.index = none) :
    err.rejection = .malformedEnvelope := by
  by_cases hsize : bytes.length ≤ c.maxMessageSize
  · cases hparse : BatchMessage.parse maxDepth bytes with
    | none =>
      rw [decodeBatch_of_parse_eq_none hsize hparse] at h
      cases h
      rfl
    | some m =>
      rw [decodeBatch_of_parse hsize hparse, BatchMessage.toBatch_eq] at h
      split at h
      · rename_i fault hfault
        cases h
        exact BatchMessage.rejection_of_unknownFault hfault
      · obtain ⟨event, -, hevent⟩ := exists_mem_of_mapM_eq_error (map_eq_error_iff.mp h)
        obtain ⟨fault, -, rfl⟩ := mapError_eq_error_iff.mp hevent
        cases hindex
  · rw [decodeBatch, parse, if_pos (Nat.not_le.mp hsize)] at h
    cases h
    rfl

/-- The decoder, on a batch with any bytes after it. -/
theorem decodeBatch_append_eq {front back : Bytes} {x : Batch} (h : c.decodeBatch front = .ok x)
    (hsize : (front ++ back).length ≤ c.maxMessageSize) :
    c.decodeBatch (front ++ back)
      = ((c.decodeBatch back).mapError (·.later x.length)).map fun y =>
          { events := x.events ++ y.events } := by
  obtain ⟨-, m, hm, hx⟩ := decodeBatch_eq_ok_iff.mp h
  have happend := BatchMessage.parse_append hm back
  have hback : back.length ≤ c.maxMessageSize := by
    rw [List.length_append] at hsize
    omega
  cases hparse : BatchMessage.parse maxDepth back with
  | none =>
    rw [hparse, Option.map_none] at happend
    rw [decodeBatch_of_parse_eq_none hsize happend, decodeBatch_of_parse_eq_none hback hparse]
    rfl
  | some m' =>
    rw [hparse, Option.map_some] at happend
    rw [decodeBatch_of_parse hsize happend, decodeBatch_of_parse hback hparse,
      BatchMessage.toBatch_append hx]

/-- **Batches concatenate.** After bytes that decode as a batch, whatever form they have, any bytes
decode as they do on their own: their events follow, a failure of one of them is the same failure
as many places later, and a failure of the whole leaves no batch at all. -/
theorem decodeBatch_append {front back : Bytes} {x : Batch} (h : c.decodeBatch front = .ok x)
    (hsize : (front ++ back).length ≤ c.maxMessageSize) :
    (∀ y, c.decodeBatch back = .ok y →
      c.decodeBatch (front ++ back) = .ok { events := x.events ++ y.events })
    ∧ (∀ err j, c.decodeBatch back = .error err → err.index = some j →
      ∃ err', c.decodeBatch (front ++ back) = .error err' ∧ err'.rejection = err.rejection
        ∧ err'.fault.detail = err.fault.detail ∧ err'.index = some (x.length + j))
    ∧ ∀ err, c.decodeBatch back = .error err → err.index = none →
      ∃ err', c.decodeBatch (front ++ back) = .error err' ∧ err'.rejection = .malformedEnvelope
        ∧ err'.index = none := by
  rw [decodeBatch_append_eq h hsize]
  refine ⟨?_, ?_, ?_⟩
  · intro y hy
    rw [hy]
    rfl
  · intro err j herr hindex
    rw [herr]
    refine ⟨err.later x.length, rfl, rfl, rfl, ?_⟩
    rw [DecodeError.later, hindex]
    rfl
  · intro err herr hindex
    have hrejection := rejection_of_decodeBatch herr hindex
    rw [herr]
    refine ⟨err.later x.length, rfl, hrejection, ?_⟩
    rw [DecodeError.later, hindex]
    rfl

/-- A batch whose length is padded and whose texts come in another order, one of them twice, with
another event, with a good and an empty event, and with a field of its own after it. -/
theorem decodeBatch_append_padded :
    let c : Codec := {}
    let e : Event := { id := "1", source := "/", specVersion := "1.0", type := "t" }
    let texts : Bytes :=
      [0x22, 1, 0x74, 0x0A, 1, 0x30, 0x0A, 1, 0x31, 0x12, 1, 0x2F, 0x1A, 3, 0x31, 0x2E, 0x30]
    let front : Bytes := 0x0A :: 0x91 :: 0x00 :: texts
    c.decodeBatch front = .ok { events := [e] }
      ∧ c.decodeBatch (front ++ frame texts) = .ok { events := [e, e] }
      ∧ (∃ err, c.decodeBatch (front ++ frames [texts, []]) = .error err
        ∧ err.rejection = .malformedEnvelope
        ∧ err.fault.detail = "missing required attribute(s): id, source, spec_version, type"
        ∧ err.index = some 2)
      ∧ ∃ err, c.decodeBatch (front ++ [0x10, 0x00]) = .error err
        ∧ err.rejection = .malformedEnvelope ∧ err.index = none := by
  intro c e texts front
  have hfront : c.decodeBatch front = .ok { events := [e] } := by decide +kernel
  have happend (back : Bytes) (hsize : (front ++ back).length ≤ c.maxMessageSize) :=
    decodeBatch_append hfront hsize
  refine ⟨hfront, ?_, ?_, ?_⟩
  · exact (happend _ (by decide +kernel)).1 { events := [e] } (by decide +kernel)
  · have herr : c.decodeBatch (frames [texts, []])
        = .error { fault := .missing RequiredField.all, index := some 1 } := by decide +kernel
    obtain ⟨err, h, hrejection, hdetail, hindex⟩ :=
      (happend _ (by decide +kernel)).2.1 _ 1 herr rfl
    exact ⟨err, h, hrejection, hdetail.trans (by decide +kernel), hindex⟩
  · have herr : c.decodeBatch [0x10, 0x00]
        = .error { fault := .unknownField .batch 2 } := by decide +kernel
    exact (happend _ (by decide +kernel)).2.2 _ herr rfl

end Codec

/-! ### Events -/

namespace Event

/-- An event with the fields of another one written over its own: texts and attributes are replaced
as a whole, and a typed payload overrides another one field by field. -/
def overriddenBy (e e' : Event) : Event :=
  { e' with
    attributes := e.attributes.overriddenBy e'.attributes
    data := EventData.overridden e.data e'.data }

theorem required_overriddenBy (e e' : Event) (f : RequiredField) :
    (e.overriddenBy e').required f = e'.required f := by
  cases f <;> rfl

theorem Valid.overriddenBy {e e' : Event} (h : e.Valid) (h' : e'.Valid) :
    (e.overriddenBy e').Valid := by
  obtain ⟨hnodup, hmem⟩ := NameMap.overriddenBy_spec h.names_nodup e'.attributes
  have hname : ∀ name ∈ (e.overriddenBy e').attributes.names,
      name ∈ e.attributes.names ∨ name ∈ e'.attributes.names := by
    intro name hm
    obtain ⟨entry, hentry, rfl⟩ := List.mem_map.mp hm
    exact (hmem entry hentry).imp (List.mem_map_of_mem ·) (List.mem_map_of_mem ·)
  exact
    { required_ne_empty := fun f => required_overriddenBy e e' f ▸ h'.required_ne_empty f
      names_nodup := hnodup
      name_ne_empty := fun name hm =>
        (hname name hm).elim (h.name_ne_empty name) (h'.name_ne_empty name)
      name_not_reserved := fun name hm =>
        (hname name hm).elim (h.name_not_reserved name) (h'.name_not_reserved name)
      value_valid := fun entry hm =>
        (hmem entry hm).elim (h.value_valid entry) (h'.value_valid entry) }

end Event

namespace EventMessage

/-- What overrides the message of an event overrides the event. -/
theorem overriddenBy_ofEvent (e e' : Event) :
    (ofEvent e).overriddenBy e' = ofEvent (e.overriddenBy e') := by
  have hattributes : NameMap.overriddenBy (ofEvent e).attributes (ofEvent e').attributes
      = (ofEvent (e.overriddenBy e')).attributes :=
    (NameMap.map_overriddenBy (fun value => ({ value := some value } : AttributeMessage))
      e.attributes e'.attributes).symm
  rw [overriddenBy, hattributes]
  rfl

/-- **A written event after any message** overrides what the message holds. -/
theorem parse_append_encode {front : Bytes} {m : EventMessage} (h : parse depth front = some m)
    {e : Event} (he : e.Valid) (hlength : (ofEvent e).encode.length ≤ maxLength) :
    parse depth (front ++ (ofEvent e).encode) = some (m.overriddenBy e) := by
  rw [encode_eq_records he.required_ne_empty] at hlength ⊢
  have hfits : ∀ r ∈ e.records RequiredField.all, r.Fits depth := Event.fits_records hlength
  rw [parse, mergeMessage_append h, mergeMessage_encodeRecords hfits]
  exact foldlM_records_of_held he.value_valid (fun f _ => RequiredField.mem_all f) hfits

end EventMessage

/-- **Appended events override.** After bytes that decode as an event, whatever form they have, the
written form of another event replaces the four texts, and each attribute that it has as a whole;
the other attributes stay. The payload of the first event stays if the second has none; if both are
typed messages the second overrides the first field by field, and otherwise it replaces it. The
written form has to stay below 2 GiB, which is where the wire format itself ends. -/
theorem Codec.decode_append_encoded {c : Codec} {front : Bytes} {e e' : Event}
    (h : c.decode front = .ok e) (h' : e'.Valid) (order : EntryOrder) :
    let back := ((({} : EventMessage).fill e').arranged order).encode
    (front ++ back).length ≤ c.maxMessageSize → back.length ≤ maxLength →
      c.encode e' = c.encodeInOrder c.entryOrder e' ∧ c.encodeInOrder order e' = .ok back
      ∧ ∃ merged, c.decode (front ++ back) = .ok merged
        ∧ (∀ f, merged.required f = e'.required f)
        ∧ (∀ name, merged.attributes.lookup name
          = (e'.attributes.lookup name).or (e.attributes.lookup name))
        ∧ merged.data = EventData.overridden e.data e'.data := by
  intro back hsize hlength
  have hback : back.length ≤ c.maxMessageSize := by
    rw [List.length_append] at hsize
    omega
  obtain ⟨-, hparse, hvalid⟩ := decode_eq_ok_iff.mp h
  obtain ⟨written, hwritten, hwvalid, hsame⟩ := order.exists_arranged_eq h'
  have hmerged : EventMessage.parse maxDepth (front ++ back)
      = some (.ofEvent (e.overriddenBy written)) := by
    rw [← EventMessage.overriddenBy_ofEvent]
    simp only [back, hwritten] at hlength ⊢
    exact EventMessage.parse_append_encode hparse hwvalid hlength
  refine ⟨encode_eq_encodeInOrder c e', bounded_eq_ok_iff.mpr ⟨hback, rfl⟩,
    e.overriddenBy written, decode_eq_ok_iff.mpr ⟨hsize, hmerged, hvalid.overriddenBy hwvalid⟩,
    ?_, ?_, ?_⟩
  · intro f
    rw [Event.required_overriddenBy, hsame.required_eq]
  · intro name
    rw [← hsame.attributes_equiv name]
    exact NameMap.lookup_overriddenBy e.attributes hwvalid.names_nodup name
  · rw [← hsame.data_eq]
    rfl

/-- A timestamp of which nothing survives in one with fewer fields, attributes on either side alone,
and two typed payloads of which each has a field. -/
theorem Codec.decode_append_encoded_partial :
    let c : Codec := { deterministic := false }
    let e : Event :=
      { id := "1", source := "/", specVersion := "1.0", type := "t"
        attributes := [("time", .timestamp { seconds := 5, nanos := 7 }), ("flag", .boolean true)]
        data := some (.structured { typeUrl := "u" }) }
    let e' : Event :=
      { id := "2", source := "/", specVersion := "1.0", type := "t"
        attributes := [("count", .integer (-1)), ("time", .timestamp { seconds := 0, nanos := 9 })]
        data := some (.structured { typeUrl := "", value := [1] }) }
    let front : Bytes := 0x0A :: 1 :: 0x78 :: (EventMessage.ofEvent e).encode
    c.decode front = .ok e ∧ e'.Valid ∧ ∃ back, c.encode e' = .ok back
      ∧ ∃ merged, c.decode (front ++ back) = .ok merged ∧ merged.required .id = "2"
        ∧ merged.attributes.lookup "time" = some (.timestamp { seconds := 0, nanos := 9 })
        ∧ merged.attributes.lookup "flag" = some (.boolean true)
        ∧ merged.attributes.lookup "count" = some (.integer (-1))
        ∧ merged.data = some (.structured { typeUrl := "u", value := [1] }) := by
  intro c e e' front
  have hfront : c.decode front = .ok e := by decide +kernel
  have hvalid : e'.Valid := by decide +kernel
  obtain ⟨hencode, hback, merged, hmerged, hrequired, hlookup, hdata⟩ :=
    decode_append_encoded hfront hvalid .asInserted (by decide +kernel) (by decide +kernel)
  refine ⟨hfront, hvalid, _, hencode.trans hback, merged, hmerged, hrequired .id, ?_, ?_, ?_,
    hdata⟩
  · exact hlookup "time"
  · exact hlookup "flag"
  · exact hlookup "count"

end CloudEvents
