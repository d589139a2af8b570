import CloudEvents.Proofs.WireConstruction

/-!
# Failures of decoding are contained

Whatever bytes arrive, a call that decodes ends in one of two ways: with an event or a batch, or
with a `DecodeError`. That no other error can come out is said of the calls as they go through the
constructors (`Codec.construct`, `Codec.constructBatch`), whose type admits them all.

A failure inside a batch tells its position and has the failure of that event as its cause; all
other failures have neither. And each call leaves one log record, whose level tells how it ended.

## Main definitions

* `Codec.construct`, `Codec.constructBatch` — decoding through the constructors
* `LogLevel.ofResult` — the level at which a result is reported
* `DecodeError.InBatch` — failures of a batch

## Main results

* `Codec.construct_eq`, `Codec.constructBatch_eq`
* `Codec.decode_contained`
-/

namespace CloudEvents

/-! ### Results and their reports -/

/-- The level at which a result is reported. -/
def LogLevel.ofResult {α ε : Type} : Except ε α → LogLevel
  | .ok _ => .debug
  | .error _ => .warning

theorem LogLevel.ofResult_mapError {α ε ε' : Type} (f : ε → ε') (result : Except ε α) :
    ofResult (result.mapError f) = ofResult result := by
  cases result <;> rfl

/-- A call that decodes contains its failures: it returns a value, or a decode failure of one of the
three classes of which `Failure` holds, and leaves one record that tells which. -/
structure Contained {α : Type} (Failure : DecodeError → Prop) (call : Logged (Except Error α)) :
    Prop where
  outcome : (∃ a, call.result = .ok a)
    ∨ ∃ err : DecodeError, call.result = .error (.decode err) ∧ Failure err
      ∧ (err.rejection = .malformedEnvelope ∨ err.rejection = .unknownAttributeVariant
        ∨ err.rejection = .unknownDataVariant)
  log : call.log.map LogRecord.level = [LogLevel.ofResult call.result]

/-- Failures of a batch with this number of events. Either the batch as a whole failed, or one of
its events did, and then the cause is the failure of that event. -/
def DecodeError.InBatch (count : Nat) (err : DecodeError) : Prop :=
  (err.index = none ∧ ∀ inner, err.cause ≠ some (.event inner))
    ∨ ∃ k inner, err.index = some k ∧ k < count ∧ err.cause = some (.event inner)
      ∧ inner.rejection = err.rejection ∧ inner.fault.detail = err.fault.detail
      ∧ inner.index = none

theorem DecodeError.inBatch_of_fault (count : Nat) (fault : Fault) :
    InBatch count { fault } := by
  refine Or.inl ⟨rfl, fun inner => ?_⟩
  cases fault <;> exact nofun

theorem DecodeError.inBatch_atIndex {count k : Nat} (hk : k < count) (fault : Fault) :
    InBatch count (atIndex { fault } k) :=
  Or.inr ⟨k, { fault }, rfl, hk, rfl, rfl, rfl, rfl⟩

theorem Contained.of_result {α : Type} {Failure : DecodeError → Prop}
    {result : Except DecodeError α}
    {call : Logged (Except Error α)} (hresult : call.result = result.mapError .decode)
    (hfailure : ∀ err, result = .error err → Failure err)
    (hlog : call.log.map LogRecord.level = [LogLevel.ofResult result]) :
    Contained Failure call where
  outcome := by
    rw [hresult]
    cases result with
    | ok a => exact Or.inl ⟨a, rfl⟩
    | error err =>
      refine Or.inr ⟨err, rfl, hfailure err rfl, ?_⟩
      cases err.rejection <;> simp
  log := by rw [hlog, hresult, LogLevel.ofResult_mapError]

/-- A batch fails as a whole, or at the position of one of its events. -/
theorem BatchMessage.inBatch_of_toBatch {m : BatchMessage} {err : DecodeError}
    (h : m.toBatch = .error err) : err.InBatch m.events.length := by
  rw [toBatch_eq] at h
  split at h
  case h_1 fault _ =>
    cases h
    exact DecodeError.inBatch_of_fault m.events.length fault
  case h_2 =>
    have hevents := map_eq_error_iff.mp h
    obtain ⟨⟨event, k⟩, hmem, hfail⟩ := exists_mem_of_mapM_eq_error hevents
    obtain ⟨fault, -, rfl⟩ := mapError_eq_error_iff.mp hfail
    exact DecodeError.inBatch_atIndex (List.snd_lt_of_mem_zipIdx hmem) fault

namespace Codec

/-! ### Decoding through the constructors -/

/-- An event from bytes, its parts constructed one by one. -/
def construct (c : Codec) (bytes : Bytes) : Except Error Event :=
  ((c.parse .event (EventMessage.parse maxDepth) bytes).mapError
    fun fault => .decode { fault }).bind
    EventMessage.construct

/-- A batch from bytes, the parts of its events constructed one by one. -/
def constructBatch (c : Codec) (bytes : Bytes) : Except Error Batch :=
  ((c.parse .batch (BatchMessage.parse maxDepth) bytes).mapError
    fun fault => .decode { fault }).bind
    BatchMessage.construct

theorem construct_eq (c : Codec) (bytes : Bytes) :
    c.construct bytes = (c.decode bytes).mapError .decode := by
  rw [construct, decode]
  cases hparse : c.parse .event (EventMessage.parse maxDepth) bytes with
  | error fault => rfl
  | ok m =>
    obtain ⟨-, hm⟩ := parse_eq_ok_iff.mp hparse
    show m.construct = (m.toEvent.mapError _).mapError _
    rw [EventMessage.construct_eq (EventMessage.names_nodup_of_parse hm)]
    cases m.toEvent <;> rfl

theorem constructBatch_eq (c : Codec) (bytes : Bytes) :
    c.constructBatch bytes = (c.decodeBatch bytes).mapError .decode := by
  rw [constructBatch, decodeBatch]
  cases hparse : c.parse .batch (BatchMessage.parse maxDepth) bytes with
  | error fault => rfl
  | ok m =>
    obtain ⟨-, hm⟩ := parse_eq_ok_iff.mp hparse
    exact BatchMessage.construct_eq (BatchMessage.names_nodup_of_parse hm)

/-! ### The calls -/

variable {c : Codec} {bytes : Bytes}

theorem inBatch_of_decodeBatch {err : DecodeError} (h : c.decodeBatch bytes = .error err) :
    err.InBatch (eventPayloads maxDepth bytes).length := by
  rw [decodeBatch] at h
  cases hparse : c.parse .batch (BatchMessage.parse maxDepth) bytes with
  | error fault =>
    rw [hparse] at h
    cases h
    exact DecodeError.inBatch_of_fault _ fault
  | ok m =>
    rw [hparse] at h
    obtain ⟨-, hm⟩ := parse_eq_ok_iff.mp hparse
    have hlength := congrArg List.length (BatchMessage.map_parse_eventPayloads hm)
    rw [List.length_map, List.length_map] at hlength
    rw [hlength]
    exact BatchMessage.inBatch_of_toBatch h

theorem decodeLogged_eq (c : Codec) (bytes : Bytes) :
    (c.decodeLogged bytes).result = c.decode bytes
      ∧ (c.decodeLogged bytes).log.map LogRecord.level = [LogLevel.ofResult (c.decode bytes)] := by
  rw [decodeLogged]
  cases c.decode bytes <;> exact ⟨rfl, rfl⟩

theorem decodeBatchLogged_eq (c : Codec) (bytes : Bytes) :
    (c.decodeBatchLogged bytes).result = c.decodeBatch bytes
      ∧ (c.decodeBatchLogged bytes).log.map LogRecord.level
        = [LogLevel.ofResult (c.decodeBatch bytes)] := by
  rw [decodeBatchLogged]
  cases c.decodeBatch bytes with
  | ok b => exact ⟨rfl, rfl⟩
  | error err =>
    obtain ⟨fault, index⟩ := err
    cases index <;> exact ⟨rfl, rfl⟩

/-- **Failures of decoding are contained and reported**, for all bytes. Decoding an event returns it
or fails without a position, and decoding a batch returns it, fails as a whole, or fails at the
position of one of the events that the bytes carry. Both are what comes out of the constructors, so
no failure of a constructor is left out, and both leave one log record. -/
theorem decode_contained (c : Codec) (bytes : Bytes) :
    ((c.decodeCandidate (.bytes bytes)).result = c.construct bytes
      ∧ Contained (fun err => err.index = none) (c.decodeCandidate (.bytes bytes)))
    ∧ (c.decodeBatchCandidate (.bytes bytes)).result = c.constructBatch bytes
      ∧ Contained (DecodeError.InBatch (eventPayloads maxDepth bytes).length)
        (c.decodeBatchCandidate (.bytes bytes)) := by
  obtain ⟨hresult, hlog⟩ := decodeLogged_eq c bytes
  obtain ⟨hresult', hlog'⟩ := decodeBatchLogged_eq c bytes
  have hone : (c.decodeCandidate (.bytes bytes)).result = (c.decode bytes).mapError .decode :=
    congrArg (Except.mapError Error.decode) hresult
  have hbatch : (c.decodeBatchCandidate (.bytes bytes)).result
      = (c.decodeBatch bytes).mapError .decode := congrArg (Except.mapError Error.decode) hresult'
  refine ⟨⟨?_, ?_⟩, ?_, ?_⟩
  · rw [hone, construct_eq]
  · refine .of_result hone (fun err herr => ?_) hlog
    obtain ⟨fault, rfl⟩ := exists_fault_of_decode_eq_error herr
    rfl
  · rw [hbatch, constructBatch_eq]
  · exact .of_result hbatch (fun err herr => inBatch_of_decodeBatch herr) hlog'

end Codec

end CloudEvents
