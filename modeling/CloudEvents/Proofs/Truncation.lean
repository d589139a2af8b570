import CloudEvents.Proofs.BatchEncoding
import CloudEvents.Proofs.Gates

/-!
# Truncated encodings

What a decoder makes of the front of an encoding whose end was lost. It may refuse it, and if it
does not, it must not make up anything: what comes out was in the event, and something of it is
missing.

A record tells its own length, so the bytes can only be cut between two records or within one, and
within one nothing can be read, because a reader that stopped early would stop there in front of the
whole record too (`eq_encodeRecords_take_of_readRecords`). This leaves the fronts that are whole
records. If one of the four texts is not among them, the event is refused as one that lacks it;
otherwise it is the event with fewer attributes and without its payload. In a batch the records are
whole events, so a front is a shorter batch.

The attributes that are left are the first ones in the order in which they were written. For names
of which one is a proper prefix of another this is not the order of their code points, and then they
need not be the first in that order: see `Codec.not_ascending_truncated`.

## Main definitions

* `Record.Announced` — records of bytes, as events and batches are written
* `Event.keeping` — an event of which only some texts are left

## Main results

* `eq_encodeRecords_take_of_readRecords` — a front that is read at all is whole records
* `Codec.decode_truncated` — fronts of encodings, of events and of batches
-/

namespace CloudEvents

variable {depth : Nat}

/-! ### Fronts of written records -/

/-- A record of bytes whose number stands in the tag. -/
def Record.Announced (r : Record) : Prop :=
  ∃ number bytes, r = ⟨number, .delimited bytes⟩ ∧ 0 < number ∧ 8 * number + 2 < UInt32.size

/-- A reader takes all of a record or nothing, so it takes nothing of a part. -/
theorem readToken_eq_none_of_front {r : Record} (hr : r.Announced) {front back : Bytes}
    (h : r.encode = front ++ back) (hback : back ≠ []) : readToken front = none := by
  obtain ⟨number, bytes, rfl, -, htag⟩ := hr
  refine Option.eq_none_iff_forall_ne_some.mpr ?_
  rintro ⟨token, rest⟩ hfront
  have hwhole := readToken_delimited_append htag bytes []
  rw [List.append_nil, h, selfDelimiting_readToken.append hfront back] at hwhole
  obtain ⟨-, hsome⟩ := Option.ite_none_right_eq_some.mp hwhole.symm
  have hnil : rest ++ back = [] := (Prod.mk.inj (Option.some.inj hsome)).2.symm
  exact hback (List.append_eq_nil_iff.mp hnil).2

/-- **A front that is read at all is whole records**, and they are read as they were written. -/
theorem eq_encodeRecords_take_of_readRecords {rs rs' : List Record} (hrs : ∀ r ∈ rs, r.Announced)
    {front : Bytes} (hfront : front <+: encodeRecords rs)
    (h : readRecords depth [] front = some rs') :
    ∃ k ≤ rs.length, front = encodeRecords (rs.take k) ∧ rs' = rs.take k
      ∧ ∀ r ∈ rs.take k, r.Fits depth := by
  have hnone {rs : List Record} {rs' : List Record} (h : readRecords depth [] [] = some rs') :
      rs' = rs.take 0 := by
    rw [readRecords_nil] at h
    exact (Option.some.inj h).symm
  induction rs generalizing front rs' with
  | nil =>
    obtain rfl : front = [] := List.prefix_nil.mp hfront
    exact ⟨0, Nat.le_refl 0, rfl, hnone h, by simp⟩
  | cons r rest ih =>
    obtain ⟨hr, hrest⟩ := List.forall_mem_cons.mp hrs
    have hcons : encodeRecords (r :: rest) = r.encode ++ encodeRecords rest := List.flatMap_cons
    rw [hcons] at hfront
    -- the cut is behind the first record, before it, or within it
    by_cases hbehind : r.encode <+: front
    · obtain ⟨tail, rfl⟩ := hbehind
      have htail : tail <+: encodeRecords rest := (List.prefix_append_right_inj _).mp hfront
      obtain ⟨number, bytes, rfl, hpos, htag⟩ := hr
      rw [readRecords_delimited_append hpos htag] at h
      obtain ⟨hlength, h⟩ := Option.ite_none_right_eq_some.mp h
      obtain ⟨rs'', htail', rfl⟩ := Option.map_eq_some_iff.mp h
      obtain ⟨k, hk, rfl, rfl, hfits⟩ := ih hrest htail htail'
      exact ⟨k + 1, Nat.succ_le_succ hk, rfl, rfl,
        List.forall_mem_cons.mpr ⟨⟨hpos, htag, hlength⟩, hfits⟩⟩
    · by_cases hbefore : front = []
      · subst hbefore
        exact ⟨0, Nat.zero_le _, rfl, hnone h, by simp⟩
      · obtain ⟨back, hback⟩ : front <+: r.encode :=
          (List.prefix_or_prefix_of_prefix hfront (List.prefix_append _ _)).resolve_right hbehind
        have hlost : back ≠ [] := by
          rintro rfl
          exact hbehind ⟨[], by simp [← hback]⟩
        have htoken := readToken_eq_none_of_front hr hback.symm hlost
        rw [readRecords_of_readToken_eq_none hbefore htoken] at h
        cases h

/-! ### Fronts of events -/

/-- The event of which only these texts are left, and nothing else. -/
def Event.keeping (e : Event) (texts : List RequiredField) : Event where
  id := if .id ∈ texts then e.id else ""
  source := if .source ∈ texts then e.source else ""
  specVersion := if .specVersion ∈ texts then e.specVersion else ""
  type := if .type ∈ texts then e.type else ""

theorem Event.required_keeping (e : Event) (texts : List RequiredField) (f : RequiredField) :
    (e.keeping texts).required f = if f ∈ texts then e.required f else "" := by
  cases f <;> rfl

theorem Event.records_keeping (e : Event) (texts : List RequiredField) :
    (e.keeping texts).records texts = texts.map e.requiredRecord := by
  have htexts : texts.map (e.keeping texts).requiredRecord = texts.map e.requiredRecord := by
    refine List.map_congr_left fun f hf => ?_
    simp [requiredRecord, required_keeping, hf]
  rw [records, htexts]
  simp [keeping]

/-- Every record of an event is a record of bytes. -/
theorem Event.announced_of_mem_records {e : Event} {written : List RequiredField} {r : Record}
    (h : r ∈ e.records written) : r.Announced := by
  obtain ⟨number, bytes, rfl, hpos, hle⟩ := exists_delimited_of_mem_records h
  refine ⟨number, bytes, rfl, hpos, ?_⟩
  simp only [UInt32.size]
  omega

/-- The first records of an event are some of its texts without the last one, or all texts and some
attributes, or everything. -/
theorem Event.take_records (e : Event) (k : Nat) :
    (∃ texts, .type ∉ texts
      ∧ (e.records RequiredField.all).take k = (e.keeping texts).records texts)
    ∨ (∃ j, (e.records RequiredField.all).take k
        = { e with attributes := e.attributes.take j, data := none }.records RequiredField.all)
    ∨ (e.records RequiredField.all).take k = e.records RequiredField.all := by
  have htype : ∀ k < 4, RequiredField.type ∉ RequiredField.all.take k := by decide
  have hfour : 4 = (RequiredField.all.map e.requiredRecord).length := rfl
  by_cases hk : k < 4
  · left
    refine ⟨RequiredField.all.take k, htype k hk, ?_⟩
    rw [records_keeping, List.map_take, records, List.append_assoc]
    exact List.take_append_of_le_length (Nat.le_of_lt hk)
  · right
    obtain ⟨j, rfl⟩ := Nat.exists_eq_add_of_le (Nat.not_lt.mp hk)
    rw [records, List.append_assoc, hfour, List.take_length_add_append]
    by_cases hj : j ≤ e.attributes.length
    · left
      have hrequired := e.requiredRecord_with (e.attributes.take j) none
      refine ⟨j, ?_⟩
      rw [List.take_append_of_le_length (by simpa using hj), ← List.map_take, records, hrequired]
      simp
    · right
      have hdata : (e.data.map EventData.record).toList.length ≤ 1 := by
        cases e.data <;> simp
      rw [List.take_of_length_le]
      rw [List.length_append, List.length_map]
      omega

/-- An event keeps its rules when it loses attributes and its payload. -/
theorem Event.valid_take {e : Event} (h : e.Valid) (j : Nat) :
    { e with attributes := e.attributes.take j, data := none }.Valid :=
  h.of_subset (((List.take_sublist j e.attributes).map Prod.fst).nodup h.names_nodup)
    (fun _ hm => List.mem_of_mem_take hm) none

/-- An event that is the same without its payload and with the first attributes only had nothing to
lose. -/
theorem Event.eq_of_same_take {e : Event} (h : e.Valid) {j : Nat}
    (hsame : { e with attributes := e.attributes.take j, data := none }.Same e) :
    { e with attributes := e.attributes.take j, data := none } = e := by
  have hperm : (e.attributes.take j).Perm e.attributes :=
    NameMap.perm_of_equiv (Event.valid_take h j).names_nodup h.names_nodup hsame.attributes_equiv
  have htake : e.attributes.take j = e.attributes :=
    (List.take_sublist j e.attributes).eq_of_length hperm.length_eq
  have hdata : none = e.data := hsame.data_eq
  rw [htake, hdata]

namespace Codec

variable {c : Codec}

theorem decode_of_parse_eq_none {bytes : Bytes} (hsize : bytes.length ≤ c.maxMessageSize)
    (h : EventMessage.parse maxDepth bytes = none) :
    c.decode bytes = .error { fault := .unparseable .event } := by
  rw [decode, parse, if_neg (Nat.not_lt.mpr hsize), h]
  rfl

/-- Texts without the last one are refused as an event that lacks it. -/
theorem decode_keeping {e : Event} {texts : List RequiredField} (htype : .type ∉ texts)
    (hfits : ∀ r ∈ (e.keeping texts).records texts, r.Fits maxDepth)
    (hsize : (encodeRecords ((e.keeping texts).records texts)).length ≤ c.maxMessageSize) :
    c.decode (encodeRecords ((e.keeping texts).records texts))
      = .error { fault := .missing (e.keeping texts).missing } := by
  have hnodup : (e.keeping texts).attributes.names.Nodup := List.nodup_nil
  have hvalues : ∀ entry ∈ (e.keeping texts).attributes, entry.2.Valid := List.forall_mem_nil _
  have hwritten : ∀ f, (e.keeping texts).required f ≠ "" → f ∈ texts := by
    intro f hne
    by_contra hf
    exact hne (by rw [Event.required_keeping, if_neg hf])
  have hmissing : (e.keeping texts).missing ≠ [] := by
    refine List.ne_nil_of_mem (List.mem_filter.mpr ⟨RequiredField.mem_all .type, ?_⟩)
    simp [Event.required_keeping, htype]
  rw [decode_records hnodup hvalues hwritten hfits hsize, if_neg hmissing]

/-- **The front of an event** is refused, or it is the event without its payload and some of its
last attributes, or nothing was lost. -/
theorem decode_front {e : Event} (h : e.Valid) {front : Bytes}
    (hfront : front <+: (EventMessage.ofEvent e).encode)
    (hsize : front.length ≤ c.maxMessageSize) :
    (∃ err, c.decode front = .error err ∧ err.rejection = .malformedEnvelope)
    ∨ (∃ j, c.decode front = .ok { e with attributes := e.attributes.take j, data := none }
      ∧ front = (EventMessage.ofEvent
        { e with attributes := e.attributes.take j, data := none }).encode)
    ∨ front = (EventMessage.ofEvent e).encode := by
  have hencode {e : Event} (h : e.Valid) :
      (EventMessage.ofEvent e).encode = encodeRecords (e.records RequiredField.all) :=
    EventMessage.encode_eq_records h.required_ne_empty
  have hall (e : Event) : ∀ f, e.required f ≠ "" → f ∈ RequiredField.all :=
    fun f _ => RequiredField.mem_all f
  cases hparse : EventMessage.parse maxDepth front with
  | none => exact Or.inl ⟨_, decode_of_parse_eq_none hsize hparse, rfl⟩
  | some m =>
    obtain ⟨rs, hrs, -⟩ := mergeMessage_eq_some_iff.mp hparse
    rw [hencode h] at hfront ⊢
    obtain ⟨k, -, rfl, -, hfits⟩ := eq_encodeRecords_take_of_readRecords
      (fun r hr => Event.announced_of_mem_records hr) hfront hrs
    rcases e.take_records k with ⟨texts, htype, htake⟩ | ⟨j, htake⟩ | htake
    · rw [htake] at hsize hfits ⊢
      exact Or.inl ⟨_, decode_keeping htype hfits hsize, rfl⟩
    · rw [htake] at hsize hfits ⊢
      have hvalid := Event.valid_take h j
      have hread := EventMessage.parse_records hvalid.names_nodup hvalid.value_valid (hall _) hfits
      exact Or.inr (Or.inl ⟨j, decode_eq_ok_iff.mpr ⟨hsize, hread, hvalid⟩, (hencode hvalid).symm⟩)
    · rw [htake]
      exact Or.inr (Or.inr rfl)

/-! ### Fronts of batches -/

/-- **The front of a batch** is refused, or it is a batch of the first events. -/
theorem decodeBatch_front {es : List Event} (h : ∀ e ∈ es, e.Valid) {front : Bytes}
    (hfront : front <+: frames (es.map Event.canonicalEncoding))
    (hsize : front.length ≤ c.maxMessageSize) :
    (∃ err, c.decodeBatch front = .error err ∧ err.rejection = .malformedEnvelope)
    ∨ ∃ k ≤ es.length, front = frames ((es.take k).map Event.canonicalEncoding)
      ∧ c.decodeBatch front = .ok { events := (es.take k).map Event.sorted } := by
  have hframes (payloads : List Bytes) :
      frames payloads = encodeRecords (payloads.map eventRecord) := by
    rw [frames, encodeRecords, List.flatMap_map]
    exact List.flatMap_congr fun payload _ => frame_eq_encode payload
  cases hparse : BatchMessage.parse maxDepth front with
  | none => exact Or.inl ⟨_, decodeBatch_of_parse_eq_none hsize hparse, rfl⟩
  | some m =>
    obtain ⟨rs, hrs, -⟩ := mergeMessage_eq_some_iff.mp hparse
    have hannounced : ∀ r ∈ (es.map Event.canonicalEncoding).map eventRecord, r.Announced := by
      refine List.forall_mem_map.mpr fun payload _ => ?_
      exact ⟨eventsField, payload, rfl, Nat.one_pos, by decide⟩
    obtain ⟨k, hk, rfl, -, hfits⟩ :=
      eq_encodeRecords_take_of_readRecords hannounced (hframes _ ▸ hfront) hrs
    rw [← List.map_take, ← List.map_take] at hsize hfits ⊢
    rw [← hframes] at hsize ⊢
    have hlength : ∀ e ∈ es.take k, e.canonicalEncoding.length ≤ maxLength := by
      intro e he
      exact (hfits _ (List.mem_map_of_mem (List.mem_map_of_mem he))).payload_fits
    have hvalid : ∀ e ∈ es.take k, e.Valid := fun e he => h e (List.mem_of_mem_take he)
    refine Or.inr ⟨k, by simpa using hk, rfl, ?_⟩
    exact decodeBatch_frames_canonicalEncoding hvalid hsize hlength

/-! ### Truncated encodings -/

/-- **Truncation makes up nothing.** A proper front of what a deterministic codec writes of an event
is refused as malformed, or read as the event without its payload and with the first of its
attributes, in the order in which they were written, and then something is missing. A proper front
of a batch is refused as malformed, or read as the first of its events, each of them whole. The
order in which attributes are written is that of the code points of their names exactly if none is a
proper prefix of another. -/
theorem decode_truncated (hc : c.deterministic = true) :
    (∀ e : Event, e.Valid → ∀ bytes, c.encode e = .ok bytes →
      ∃ entries, e.InWritingOrder entries
        ∧ ((entries.Pairwise fun a b => a.1 < b.1) ↔ PrefixFree e.attributes.names)
        ∧ ∀ front, front <+: bytes → front ≠ bytes →
          (∃ err, c.decode front = .error err ∧ err.rejection = .malformedEnvelope)
          ∨ ∃ k, c.decode front = .ok { e with attributes := entries.take k, data := none }
            ∧ ¬ { e with attributes := entries.take k, data := none }.Same e)
    ∧ ∀ es : List Event, (∀ e ∈ es, e.Valid) → ∀ bytes, c.encodeBatch { events := es } = .ok bytes →
      ∀ front, front <+: bytes → front ≠ bytes →
        (∃ err, c.decodeBatch front = .error err ∧ err.rejection = .malformedEnvelope)
        ∨ ∃ k < es.length, ∃ b, c.decodeBatch front = .ok b ∧ b.Same { events := es.take k } := by
  constructor
  · intro e h bytes hbytes
    obtain ⟨hsize, rfl⟩ := (encode_eq_ok_iff hc h).mp hbytes
    have horder := e.inWritingOrder_sorted h.names_nodup
    have hsorted := Event.valid_sorted h
    refine ⟨_, horder, horder.ascending_iff, fun front hfront hne => ?_⟩
    have hsize' : front.length ≤ c.maxMessageSize := Nat.le_trans hfront.length_le hsize
    rw [Event.canonicalEncoding_eq_encode h] at hfront hne
    rcases decode_front hsorted hfront hsize' with herr | ⟨k, hk, hwritten⟩ | hall
    · exact Or.inl herr
    · refine Or.inr ⟨k, hk, fun hsame => hne ?_⟩
      have hwhole := Event.eq_of_same_take hsorted
        (hsame.trans (Event.same_of_perm h.names_nodup e.perm_sorted).symm)
      rw [hwritten, hwhole]
    · exact absurd hall hne
  · intro es h bytes hbytes front hfront hne
    rw [encodeBatch_eq hc h] at hbytes
    obtain ⟨hsize, rfl⟩ := bounded_eq_ok_iff.mp hbytes
    have hsize' : front.length ≤ c.maxMessageSize := Nat.le_trans hfront.length_le hsize
    rcases decodeBatch_front h hfront hsize' with herr | ⟨k, hk, hwritten, hread⟩
    · exact Or.inl herr
    · refine Or.inr ⟨k, Nat.lt_of_le_of_ne hk ?_, _, hread, ?_⟩
      · rintro rfl
        rw [List.take_length] at hwritten
        exact hne hwritten
      · exact Batch.same_sorted fun e he => h e (List.mem_of_mem_take he)

/-- An event that is cut behind its first attribute, and a byte earlier; and two events of which the
first is left. -/
theorem decode_truncated_cuts :
    let c : Codec := {}
    let a : String × AttributeValue := ("a", .boolean false)
    let b : String × AttributeValue := ("b", .boolean true)
    let e : Event :=
      { id := "1", source := "s", specVersion := "1.0", type := "t", attributes := [b, a]
        data := some (.text "x") }
    let bytes : Bytes := Layout.event { e with attributes := [a, b] }
    c.encode e = .ok bytes
    ∧ (∃ d, c.decode (bytes.take 23) = .ok d ∧ d.attributes = [a] ∧ ¬ d.Same e)
    ∧ (∃ err, c.decode (bytes.take 22) = .error err ∧ err.rejection = .malformedEnvelope)
    ∧ ∃ k < 2, ∃ read, c.decodeBatch (frame bytes) = .ok read
      ∧ read.Same { events := [e, e].take k } := by
  intro c a b e bytes
  have hvalid : e.Valid := by decide +kernel
  have horder : e.InWritingOrder [a, b] := by decide +kernel
  have hcanonical : e.canonicalEncoding = bytes := horder.canonicalEncoding_eq hvalid.names_nodup
  have hencode : c.encode e = .ok bytes :=
    encode_eq_ok_of_inWritingOrder rfl hvalid horder (by decide +kernel)
  obtain ⟨hevent, hbatch⟩ := decode_truncated (c := c) rfl
  obtain ⟨entries, -, -, hfront⟩ := hevent e hvalid bytes hencode
  have hread : c.decode (bytes.take 23) = .ok { e with attributes := [a], data := none } :=
    decode_eq_ok_iff.mpr (by decide +kernel)
  have hnone : EventMessage.parse maxDepth (bytes.take 22) = none := by decide +kernel
  refine ⟨hencode, ⟨_, hread, rfl, ?_⟩, ?_, ?_⟩
  · rcases hfront _ (List.take_prefix 23 bytes) (by decide +kernel) with
      ⟨err, herr, -⟩ | ⟨k, hk, hlost⟩
    · rw [hread] at herr
      cases herr
    · rw [hread] at hk
      exact Except.ok.inj hk ▸ hlost
  · rcases hfront _ (List.take_prefix 22 bytes) (by decide +kernel) with herr | ⟨k, hk, -⟩
    · exact herr
    · rw [decode_of_parse_eq_none (by decide +kernel) hnone] at hk
      cases hk
  · have hone : ∀ e' ∈ [e], e'.Valid := by simpa using hvalid
    have htwo : ∀ e' ∈ [e, e], e'.Valid := by simpa using hvalid
    have hframe : frames ([e].map Event.canonicalEncoding) = frame bytes := by
      simp [frames, hcanonical]
    have hframes : frames ([e, e].map Event.canonicalEncoding) = frame bytes ++ frame bytes := by
      simp [frames, hcanonical]
    have hencodeBatch : c.encodeBatch { events := [e, e] } = .ok (frame bytes ++ frame bytes) := by
      rw [encodeBatch_eq rfl htwo, hframes]
      exact bounded_eq_ok_iff.mpr ⟨by decide +kernel, rfl⟩
    have hlength : ∀ e' ∈ [e], e'.canonicalEncoding.length ≤ maxLength := by
      simp only [List.forall_mem_singleton, hcanonical]
      decide +kernel
    have hread : c.decodeBatch (frame bytes) = .ok { events := [e.sorted] } := by
      rw [← hframe]
      exact decodeBatch_frames_canonicalEncoding hone (hframe ▸ (by decide +kernel)) hlength
    rcases hbatch [e, e] htwo _ hencodeBatch (frame bytes) (List.prefix_append _ _)
      (by decide +kernel) with ⟨err, herr, -⟩ | hfirst
    · rw [hread] at herr
      cases herr
    · exact hfirst

/-- **What is left need not be first.** The front of an event with attributes `a` and `ab` can be
read as an event with `ab` alone, which are not its first attributes by code points, however many.
-/
theorem not_ascending_truncated :
    let c : Codec := {}
    let e : Event :=
      { id := "1", source := "s", specVersion := "1.0", type := "t"
        attributes := [("a", .integer 0), ("ab", .integer 0)] }
    e.Valid ∧ (e.attributes.Pairwise fun a b => a.1 < b.1)
    ∧ ∃ bytes front d, c.encode e = .ok bytes ∧ front <+: bytes ∧ front ≠ bytes
      ∧ c.decode front = .ok d
      ∧ ∀ k, ¬ d.Same { e with attributes := e.attributes.take k, data := none } := by
  intro c e
  have hvalid : e.Valid := by decide +kernel
  have horder : e.InWritingOrder [("ab", .integer 0), ("a", .integer 0)] := by decide +kernel
  have hencode : c.encode e = .ok (Layout.event _) :=
    encode_eq_ok_of_inWritingOrder rfl hvalid horder (by decide +kernel)
  let d : Event := { e with attributes := [("ab", .integer 0)] }
  refine ⟨hvalid, by decide +kernel, _, Layout.event d, d, hencode, by decide +kernel,
    by decide +kernel, decode_eq_ok_iff.mpr (by decide +kernel), ?_⟩
  intro k
  match k with
  | 0 => decide +kernel
  | 1 => decide +kernel
  | k + 2 =>
    have hall : e.attributes.take (k + 2) = e.attributes := by simp [e]
    rw [hall]
    decide +kernel

end Codec

end CloudEvents
