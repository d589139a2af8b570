import CloudEvents.Proofs.Interpretation

/-!
# Decoding a batch and decoding its events

A batch on the wire is its event payloads, each behind a tag and a length. Decoding the batch is
decoding the payloads one after the other, up to two differences that come from doing it in one
parse. An event inside a batch has one level less for what is nested in it, which no event that
parses needs (`EventMessage.parse_mono`). And the parse is over before any event is interpreted, so
a payload that does not parse hides every other failure, together with its position.

A payload that is too long for its length prefix is no exception: then nothing parses, because a
length beyond `maxLength` is refused however it is written.

## Main definitions

* `frame`, `frames` — payloads as a batch carries them
* `eventPayloads` — the payloads that the bytes of a batch carry
* `DecodeError.inOrder` — results one after the other, up to the first failure and its position

## Main results

* `readRecords_frame_append` — a frame is read back, or nothing is
* `BatchMessage.map_parse_eventPayloads`, `BatchMessage.parse_frames` — what parses as a batch is
  payloads that parse
* `Codec.decodeBatch_frames` — the comparison of the two decoders
-/

namespace CloudEvents

variable {depth : Nat}

/-! ### Lengths that are too long -/

/-- A varint that takes more bytes than are allowed is not read. -/
theorem Varint.read_encode_eq_none {limit n : Nat} (h : Nat.pow 128 limit ≤ n) (rest : Bytes) :
    read limit (encode n ++ rest) = none := by
  induction limit generalizing n with
  | zero => rfl
  | succ limit ih =>
    have hpow : Nat.pow 128 limit * 128 ≤ n := h
    have hpos : 0 < Nat.pow 128 limit := Nat.pow_pos (by decide)
    have hbyte : (UInt8.ofNat (n % 128 + 128)).toNat = n % 128 + 128 := by
      rw [UInt8.toNat_ofNat']
      exact Nat.mod_eq_of_lt (by omega)
    have hrest : read limit (encode (n / 128) ++ rest) = none :=
      ih ((Nat.le_div_iff_mul_le (by decide)).mpr hpow)
    rw [encode, if_neg (by omega), List.cons_append, read, hbyte, if_neg (by omega), hrest,
      Option.map_none]

theorem readDelimited_encode_eq_none {bytes : Bytes} (h : maxLength < bytes.length)
    (rest : Bytes) : readDelimited (Varint.encode bytes.length ++ bytes ++ rest) = none := by
  rw [readDelimited, List.append_assoc]
  by_cases hlt : bytes.length < Nat.pow 128 5
  · rw [Varint.read_encode hlt (by decide)]
    exact if_neg (Nat.not_le.mpr h)
  · rw [Varint.read_encode_eq_none (Nat.not_lt.mp hlt), Option.bind_none]

theorem readRecords_of_readToken_eq_none {enclosing : List Nat} {s : Bytes} (hs : s ≠ [])
    (h : readToken s = none) : readRecords depth enclosing s = none := by
  rw [readRecords, if_neg (by simpa using hs)]
  split
  · rfl
  · rename_i he
    rw [h] at he
    cases he

/-- A record of bytes is one token when their number can be announced; when it cannot, there is no
token, whatever follows. -/
theorem readToken_delimited_append {number : Nat} (htag : 8 * number + 2 < UInt32.size)
    (bytes rest : Bytes) :
    readToken ((⟨number, .delimited bytes⟩ : Record).encode ++ rest)
      = if bytes.length ≤ maxLength then some (.whole ⟨number, .delimited bytes⟩, rest)
        else none := by
  have htoken : readToken ((⟨number, .delimited bytes⟩ : Record).encode ++ rest)
      = readPayload number 2 (Varint.encode bytes.length ++ bytes ++ rest) := by
    rw [Record.encode, List.append_assoc]
    exact readToken_encode (by decide) htag _
  rw [htoken]
  split
  · rename_i hle
    exact @readPayload_encode 0 number (.delimited bytes) Payload.noConfusion hle rest
  · rename_i hlong
    show (readDelimited _).map _ = none
    rw [readDelimited_encode_eq_none (Nat.not_le.mp hlong), Option.map_none]

/-- A record of bytes is read back, or nothing is. -/
theorem readRecords_delimited_append {number : Nat} (hpos : 0 < number)
    (htag : 8 * number + 2 < UInt32.size) (bytes rest : Bytes) :
    readRecords depth [] ((⟨number, .delimited bytes⟩ : Record).encode ++ rest)
      = if bytes.length ≤ maxLength then
          (readRecords depth [] rest).map ((⟨number, .delimited bytes⟩ : Record) :: ·)
        else none := by
  have htoken := readToken_delimited_append htag bytes rest
  split
  · rename_i hle
    have hfits : Record.Fits depth ⟨number, .delimited bytes⟩ := ⟨hpos, htag, hle⟩
    exact readRecords_encode_append hfits rest
  · rename_i hlong
    rw [if_neg hlong] at htoken
    refine readRecords_of_readToken_eq_none ?_ htoken
    exact List.append_ne_nil_of_left_ne_nil (Record.encode_ne_nil _) rest

/-! ### Frames -/

/-- A payload behind the tag of the events of a batch and its own length. -/
def frame (payload : Bytes) : Bytes := 0x0A :: (Varint.encode payload.length ++ payload)

/-- The payloads of a batch one after the other. -/
def frames (payloads : List Bytes) : Bytes := payloads.flatMap frame

/-- The record that a frame writes. -/
def eventRecord (payload : Bytes) : Record := ⟨eventsField, .delimited payload⟩

theorem frame_eq_encode (payload : Bytes) : frame payload = (eventRecord payload).encode := by
  have htag : Varint.encode (8 * eventsField + 2) = [0x0A] := by decide +kernel
  rw [Record.encode, eventRecord, Payload.wireType, htag]
  rfl

theorem length_le_frames {payloads : List Bytes} {payload : Bytes} (h : payload ∈ payloads) :
    payload.length ≤ (frames payloads).length := by
  obtain ⟨front, back, rfl⟩ := List.append_of_mem h
  simp only [frames, frame, List.flatMap_append, List.flatMap_cons, List.length_append,
    List.length_cons]
  omega

/-- A frame is read back when its length can be announced; when it cannot, nothing is read. -/
theorem readRecords_frame_append (payload rest : Bytes) :
    readRecords depth [] (frame payload ++ rest)
      = if payload.length ≤ maxLength then
          (readRecords depth [] rest).map (eventRecord payload :: ·)
        else none := by
  rw [frame_eq_encode]
  exact readRecords_delimited_append Nat.one_pos (by decide) payload rest

theorem eq_eventRecords_of_readRecords {payloads : List Bytes} {rs : List Record}
    (h : readRecords depth [] (frames payloads) = some rs) : rs = payloads.map eventRecord := by
  induction payloads generalizing rs with
  | nil =>
    rw [frames, List.flatMap_nil, readRecords_nil] at h
    exact (Option.some.inj h).symm
  | cons payload rest ih =>
    rw [frames, List.flatMap_cons, readRecords_frame_append] at h
    obtain ⟨-, hrest⟩ := Option.ite_none_right_eq_some.mp h
    obtain ⟨tail, htail, rfl⟩ := Option.map_eq_some_iff.mp hrest
    rw [ih htail, List.map_cons]

/-! ### Parsing a batch -/

/-- The payload of a record that carries an event of a batch. -/
def Record.eventPayload? : Record → Option Bytes
  | ⟨1, .delimited payload⟩ => some payload
  | _ => none

/-- The payloads of the events that the bytes of a batch carry. -/
def eventPayloads (depth : Nat) (bytes : Bytes) : List Bytes :=
  ((readRecords depth [] bytes).getD []).filterMap Record.eventPayload?

theorem eventPayloads_of_readRecords {bytes : Bytes} {rs : List Record}
    (h : readRecords depth [] bytes = some rs) :
    eventPayloads depth bytes = rs.filterMap Record.eventPayload? := by
  rw [eventPayloads, h, Option.getD_some]

namespace BatchMessage

/-- Event records are taken in one by one, each as the event that its payload parses as, and all
others are kept aside. -/
theorem exists_of_foldlM {rs : List Record} {m m' : BatchMessage}
    (h : rs.foldlM (apply depth) m = some m') :
    ∃ events, (rs.filterMap Record.eventPayload?).map (EventMessage.parse (depth - 1))
        = events.map some
      ∧ m' = { events := m.events ++ events
               unknown := m.unknown ++ rs.filter (·.eventPayload?.isNone) } := by
  induction rs generalizing m with
  | nil =>
    cases h
    exact ⟨[], rfl, by simp⟩
  | cons r rest ih =>
    obtain ⟨next, hnext, hrest⟩ := Option.bind_eq_some_iff.mp h
    obtain ⟨events, hevents, rfl⟩ := ih hrest
    cases hr : r.eventPayload? with
    | some payload =>
      obtain rfl : r = ⟨1, .delimited payload⟩ := by
        unfold Record.eventPayload? at hr
        split at hr <;> cases hr
        rfl
      obtain ⟨event, hevent, rfl⟩ := Option.map_eq_some_iff.mp hnext
      refine ⟨event :: events, ?_, ?_⟩
      · rw [List.filterMap_cons_some hr, List.map_cons, hevent, hevents, List.map_cons]
      · rw [List.filter_cons_of_neg (by simp [hr]), List.append_assoc]
        rfl
    | none =>
      have hkept : m.apply depth r = some { m with unknown := m.unknown ++ [r] } := by
        rw [BatchMessage.apply]
        split
        · rename_i payload hnumber hpayload
          obtain ⟨number, payload'⟩ := r
          simp only at hnumber hpayload
          subst hnumber hpayload
          cases hr
        · rfl
      obtain rfl := Option.some.inj (hkept.symm.trans hnext)
      refine ⟨events, ?_, ?_⟩
      · rw [List.filterMap_cons_none hr, hevents]
      · rw [List.filter_cons_of_pos (by simp [hr]), List.append_assoc]
        rfl

/-- The events of a batch are those that its payloads parse as. -/
theorem map_parse_eventPayloads {bytes : Bytes} {m : BatchMessage}
    (h : BatchMessage.parse depth bytes = some m) :
    (eventPayloads depth bytes).map (EventMessage.parse (depth - 1)) = m.events.map some := by
  obtain ⟨rs, hrs, hfold⟩ := mergeMessage_eq_some_iff.mp h
  obtain ⟨events, hevents, rfl⟩ := exists_of_foldlM hfold
  rw [eventPayloads_of_readRecords hrs, hevents]
  rfl

theorem names_nodup_of_parse {bytes : Bytes} {m : BatchMessage}
    (h : BatchMessage.parse depth bytes = some m) :
    ∀ event ∈ m.events, event.attributes.names.Nodup := by
  intro event hevent
  have hmem : some event ∈ m.events.map some := List.mem_map_of_mem hevent
  rw [← map_parse_eventPayloads h] at hmem
  obtain ⟨payload, -, hpayload⟩ := List.mem_map.mp hmem
  exact EventMessage.names_nodup_of_parse hpayload

/-- **What parses as a batch is a list of payloads that parse**, and the batch holds the events in
their order and nothing else. -/
theorem parse_frames {payloads : List Bytes} {m : BatchMessage}
    (h : BatchMessage.parse depth (frames payloads) = some m) :
    payloads.map (EventMessage.parse (depth - 1)) = m.events.map some ∧ m.unknown = [] := by
  have hmap := map_parse_eventPayloads h
  obtain ⟨rs, hrs, hfold⟩ := mergeMessage_eq_some_iff.mp h
  have hrecords := eq_eventRecords_of_readRecords hrs
  have hpayloads : rs.filterMap Record.eventPayload? = payloads := by
    rw [hrecords, List.filterMap_map]
    exact List.filterMap_some
  rw [eventPayloads_of_readRecords hrs, hpayloads] at hmap
  refine ⟨hmap, ?_⟩
  obtain ⟨events, -, rfl⟩ := exists_of_foldlM hfold
  show [] ++ rs.filter _ = []
  rw [hrecords, List.nil_append, List.filter_map, List.map_eq_nil_iff, List.filter_eq_nil_iff]
  exact fun payload _ => Bool.false_ne_true

end BatchMessage

/-! ### The first failure -/

theorem exists_map_ok_of_forall {α β ε : Type} {f : α → Except ε β} {l : List α}
    (h : ∀ a ∈ l, ∃ b, f a = .ok b) : ∃ results : List β, l.map f = results.map .ok := by
  induction l with
  | nil => exact ⟨[], rfl⟩
  | cons a rest ih =>
    obtain ⟨⟨b, hb⟩, hrest⟩ := List.forall_mem_cons.mp h
    obtain ⟨tail, htail⟩ := ih hrest
    exact ⟨b :: tail, by rw [List.map_cons, hb, htail, List.map_cons]⟩

/-- The events of a list of results: all of them, or the first failure with its position, counted
from `start`. -/
def DecodeError.inOrder (start : Nat) (results : List (Except DecodeError Event)) :
    Except DecodeError (List Event) :=
  (results.zipIdx start).mapM fun result => result.1.mapError fun err => err.atIndex result.2

namespace DecodeError

theorem inOrder_ok (start : Nat) (events : List Event) :
    inOrder start (events.map .ok) = .ok events := by
  induction events generalizing start with
  | nil => rfl
  | cons e rest ih =>
    rw [inOrder, List.map_cons, List.zipIdx_cons, mapM_cons_eq_ok_iff]
    exact ⟨e, rest, rfl, ih (start + 1), rfl⟩

theorem inOrder_error (start : Nat) (front : List Event) (err : DecodeError)
    (back : List (Except DecodeError Event)) :
    inOrder start (front.map .ok ++ .error err :: back)
      = .error (err.atIndex (start + front.length)) := by
  induction front generalizing start with
  | nil => rfl
  | cons e rest ih =>
    have hrest := ih (start + 1)
    rw [inOrder] at hrest
    rw [inOrder, List.map_cons, List.cons_append, List.zipIdx_cons, List.mapM_cons, hrest,
      List.length_cons, Nat.add_right_comm, Nat.add_assoc]
    rfl

end DecodeError

/-- The interpretation of a batch, as that of its events on their own. -/
theorem BatchMessage.toBatch_eq_inOrder {m : BatchMessage} (h : m.unknown = []) :
    m.toBatch = (DecodeError.inOrder 0
      (m.events.map fun event => event.toEvent.mapError fun fault => { fault })).map
        fun events => { events } := by
  obtain ⟨events, unknown⟩ := m
  cases h
  have hmap (start : Nat) : DecodeError.inOrder start
        (events.map fun event => event.toEvent.mapError fun fault => { fault })
      = (events.zipIdx start).mapM EventMessage.toEventAt := by
    induction events generalizing start with
    | nil => rfl
    | cons event rest ih =>
      have hrest := ih (start + 1)
      rw [DecodeError.inOrder] at hrest ⊢
      rw [List.map_cons, List.zipIdx_cons, List.zipIdx_cons, List.mapM_cons, List.mapM_cons, hrest,
        EventMessage.toEventAt]
      cases event.toEvent <;> rfl
  rw [hmap, toBatch_eq]
  rfl

/-! ### The two decoders -/

namespace Codec

variable {c : Codec}

/-- Bytes that parse as a batch are interpreted as one. -/
theorem decodeBatch_of_parse {bytes : Bytes} (hsize : bytes.length ≤ c.maxMessageSize)
    {m : BatchMessage} (h : BatchMessage.parse maxDepth bytes = some m) :
    c.decodeBatch bytes = m.toBatch := by
  have hparse : c.parse .batch (BatchMessage.parse maxDepth) bytes = .ok m :=
    parse_eq_ok_iff.mpr ⟨hsize, h⟩
  rw [decodeBatch, hparse]
  rfl

theorem decodeBatch_of_parse_eq_none {bytes : Bytes} (hsize : bytes.length ≤ c.maxMessageSize)
    (h : BatchMessage.parse maxDepth bytes = none) :
    c.decodeBatch bytes = .error { fault := .unparseable .batch } := by
  rw [decodeBatch, parse, if_neg (Nat.not_lt.mpr hsize), h]
  rfl

theorem decodeBatch_eq_ok_iff {bytes : Bytes} {b : Batch} :
    c.decodeBatch bytes = .ok b ↔ bytes.length ≤ c.maxMessageSize
      ∧ ∃ m, BatchMessage.parse maxDepth bytes = some m ∧ m.toBatch = .ok b := by
  have hbind : c.decodeBatch bytes = .ok b
      ↔ ∃ m, (c.parse .batch (BatchMessage.parse maxDepth) bytes).mapError
            (fun fault => ({ fault } : DecodeError)) = .ok m ∧ m.toBatch = .ok b :=
    bind_eq_ok_iff
  simp only [hbind, mapError_eq_ok_iff, parse_eq_ok_iff, and_assoc, exists_and_left]

/-- On its own an event has no position. -/
theorem exists_fault_of_decode_eq_error {bytes : Bytes} {err : DecodeError}
    (h : c.decode bytes = .error err) : ∃ fault, err = { fault } := by
  obtain ⟨fault, -, herr⟩ := mapError_eq_error_iff.mp h
  exact ⟨fault, herr.symm⟩

/-- A payload that parses inside a batch is decoded alike when it stands alone. -/
theorem decode_of_parse {payload : Bytes} (hsize : payload.length ≤ c.maxMessageSize)
    {m : EventMessage} (h : EventMessage.parse (maxDepth - 1) payload = some m) :
    c.decode payload = m.toEvent.mapError fun fault => { fault } := by
  have hparse : c.parse .event (EventMessage.parse maxDepth) payload = .ok m :=
    parse_eq_ok_iff.mpr ⟨hsize, EventMessage.parse_mono (Nat.sub_le _ _) h⟩
  rw [decode, hparse]
  rfl

theorem map_decode_of_map_parse {payloads : List Bytes}
    (hsize : ∀ payload ∈ payloads, payload.length ≤ c.maxMessageSize) {events : List EventMessage}
    (h : payloads.map (EventMessage.parse (maxDepth - 1)) = events.map some) :
    payloads.map c.decode
      = events.map fun event => event.toEvent.mapError fun fault => { fault } := by
  induction payloads generalizing events with
  | nil =>
    cases events with
    | nil => rfl
    | cons event rest => cases h
  | cons payload rest ih =>
    cases events with
    | nil => cases h
    | cons event tail =>
      obtain ⟨hhead, htail⟩ := List.cons.inj h
      obtain ⟨hsizehead, hsizetail⟩ := List.forall_mem_cons.mp hsize
      rw [List.map_cons, List.map_cons, decode_of_parse hsizehead hhead, ih hsizetail htail]

/-- A batch that parses is decoded payload by payload. -/
theorem decodeBatch_frames_eq_inOrder {payloads : List Bytes}
    (hsize : (frames payloads).length ≤ c.maxMessageSize) {m : BatchMessage}
    (h : BatchMessage.parse maxDepth (frames payloads) = some m) :
    c.decodeBatch (frames payloads)
      = (DecodeError.inOrder 0 (payloads.map c.decode)).map fun events => { events } := by
  obtain ⟨hevents, hunknown⟩ := BatchMessage.parse_frames h
  have hdecode := map_decode_of_map_parse (c := c)
    (fun payload hp => Nat.le_trans (length_le_frames hp) hsize) hevents
  rw [decodeBatch_of_parse hsize h, hdecode, BatchMessage.toBatch_eq_inOrder hunknown]

/-- A payload that does not parse leaves nothing of the batch, wherever it stands. -/
theorem decodeBatch_frames_of_parse_eq_none {payloads : List Bytes}
    (hsize : (frames payloads).length ≤ c.maxMessageSize) {payload : Bytes}
    (hmem : payload ∈ payloads) (h : EventMessage.parse maxDepth payload = none) :
    c.decodeBatch (frames payloads) = .error { fault := .unparseable .batch } := by
  have hbatch : BatchMessage.parse maxDepth (frames payloads) = none := by
    refine Option.eq_none_iff_forall_ne_some.mpr fun m hm => ?_
    have hin := List.mem_map_of_mem (f := EventMessage.parse (maxDepth - 1)) hmem
    rw [(BatchMessage.parse_frames hm).1] at hin
    obtain ⟨event, -, hevent⟩ := List.mem_map.mp hin
    have := EventMessage.parse_mono (Nat.sub_le maxDepth 1) hevent.symm
    rw [h] at this
    cases this
  exact decodeBatch_of_parse_eq_none hsize hbatch

/-- **Decoding a batch agrees with decoding its payloads.** If the batch parses, its events are
those that the payloads decode to, in order, and the first payload that does not decode fails the
batch with the same class and detail, its position, and the failure of that event as the cause. A
payload that does not parse as an event fails the batch as a whole, whatever comes before it. -/
theorem decodeBatch_frames (c : Codec) (payloads : List Bytes)
    (hsize : (frames payloads).length ≤ c.maxMessageSize) :
    ((BatchMessage.parse maxDepth (frames payloads)).isSome →
      (∀ events, payloads.map c.decode = events.map .ok →
        c.decodeBatch (frames payloads) = .ok { events })
      ∧ ∀ k (hk : k < payloads.length) err, c.decode payloads[k] = .error err →
        (∀ i (hi : i < k), ∃ e, c.decode payloads[i] = .ok e) →
        ∃ err', c.decodeBatch (frames payloads) = .error err' ∧ err'.rejection = err.rejection
          ∧ err'.fault.detail = err.fault.detail ∧ err'.index = some k
          ∧ err'.cause = some (.event err) ∧ err.index = none)
    ∧ ((∃ payload ∈ payloads, EventMessage.parse maxDepth payload = none) →
      ∃ err, c.decodeBatch (frames payloads) = .error err
        ∧ err.rejection = .malformedEnvelope ∧ err.index = none) := by
  refine ⟨fun hsome => ?_, ?_⟩
  · obtain ⟨m, hm⟩ := Option.isSome_iff_exists.mp hsome
    have hall := decodeBatch_frames_eq_inOrder hsize hm
    refine ⟨fun events hevents => ?_, fun k hk err herr hbefore => ?_⟩
    · rw [hall, hevents, DecodeError.inOrder_ok]
      rfl
    · have hfirst : ∃ front : List Event, (payloads.take k).map c.decode = front.map .ok := by
        refine exists_map_ok_of_forall fun payload hp => ?_
        obtain ⟨i, hi, rfl⟩ := List.mem_take_iff_getElem.mp hp
        exact hbefore i (Nat.lt_of_lt_of_le hi (Nat.min_le_left k _))
      obtain ⟨front, hfront⟩ := hfirst
      have hk' : k = front.length := by
        have hlength := congrArg List.length hfront
        rw [List.length_map, List.length_map, List.length_take] at hlength
        omega
      have hsplit : payloads.map c.decode
          = front.map .ok ++ .error err :: (payloads.drop (k + 1)).map c.decode := by
        rw [← hfront, ← herr, ← List.map_cons, ← List.map_append, List.getElem_cons_drop,
          List.take_append_drop]
      obtain ⟨fault, rfl⟩ := exists_fault_of_decode_eq_error herr
      refine ⟨DecodeError.atIndex { fault } k, ?_, rfl, rfl, rfl, rfl, rfl⟩
      rw [hall, hsplit, DecodeError.inOrder_error, Nat.zero_add, ← hk']
      rfl
  · rintro ⟨payload, hmem, hnone⟩
    exact ⟨_, decodeBatch_frames_of_parse_eq_none hsize hmem hnone, rfl, rfl⟩

/-- Two batches: a good payload before two that lack everything, of which the first is reported, and
a payload that lacks everything before one that does not parse, which alone is reported. -/
theorem decodeBatch_frames_at_first_failure :
    let c : Codec := {}
    let e : Event := { id := "1", source := "/", specVersion := "1.0", type := "t" }
    (∃ err, c.decodeBatch (frames [(EventMessage.ofEvent e).encode, [], []]) = .error err
        ∧ err.rejection = .malformedEnvelope
        ∧ err.fault.detail = "missing required attribute(s): id, source, spec_version, type"
        ∧ err.index = some 1)
      ∧ ∃ err, c.decodeBatch (frames [[], [0x0F]]) = .error err
        ∧ err.rejection = .malformedEnvelope ∧ err.index = none := by
  intro c e
  have hgood : c.decode (EventMessage.ofEvent e).encode = .ok e :=
    decode_eq_ok_iff.mpr (by decide +kernel)
  have hmissing : c.decode [] = .error { fault := .missing RequiredField.all } := by
    have hempty : EventMessage.parse maxDepth [] = some {} := by decide +kernel
    rw [decode, parse, if_neg (by decide), hempty]
    rfl
  have hnone : EventMessage.parse maxDepth [0x0F] = none := by decide +kernel
  constructor
  · obtain ⟨-, hfirst⟩ := (decodeBatch_frames c [(EventMessage.ofEvent e).encode, [], []]
      (by decide +kernel)).1 (by decide +kernel)
    obtain ⟨err, herr, hrejection, hdetail, hindex, -⟩ :=
      hfirst 1 (by decide) _ hmissing fun i hi => by
        obtain rfl : i = 0 := Nat.lt_one_iff.mp hi
        exact ⟨e, hgood⟩
    exact ⟨err, herr, hrejection, hdetail.trans (by decide +kernel), hindex⟩
  · exact (decodeBatch_frames c [[], [0x0F]] (by decide +kernel)).2 ⟨[0x0F], by decide, hnone⟩

end Codec

end CloudEvents
