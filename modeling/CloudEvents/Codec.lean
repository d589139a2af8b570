import CloudEvents.EventText
import CloudEvents.Log
import CloudEvents.Wire.BatchMessage

/-!
# The codec

A codec turns events and batches into bytes and back. It has two settings: the size that neither
input nor output may exceed, and whether attribute entries are written in the order of their names.
With the second set, which is the default, equal events have equal encodings.

Encoding an event of strings can fail only on size. The texts of an event that a caller holds may
also be such as no string is, with a surrogate in them, and these are refused before anything is
written. Decoding fails with a `DecodeError` and in no other way, and a failure inside a batch
carries the position of the event.

The pure functions come first. Each has a logged form, which adds the one record of the call: a
debug record when it succeeds, a warning when input is rejected. An encoding that is too long is the
caller's error and is not logged.

## Main definitions

* `Codec`, `Codec.ofSettings`
* `Codec.encode`, `Codec.decode`, `Codec.encodeBatch`, `Codec.decodeBatch`
* `Codec.encodePoints`, `Codec.encodeBatchPoints` — encoding, when texts may hold surrogates
* `Codec.encodeLogged` and its companions
-/

namespace CloudEvents

/-- The settings of a codec. The default limit is 64 MiB. -/
structure Codec where
  maxMessageSize : Nat := 67108864
  deterministic : Bool := true
  deriving DecidableEq

namespace Codec

/-- A codec with a limit of at least one byte. -/
def ofSettings (maxMessageSize : Int) (deterministic : Bool) : Except Misuse Codec :=
  if maxMessageSize ≤ 0 then .error .limitNotPositive
  else .ok { maxMessageSize := maxMessageSize.toNat, deterministic }

/-! ### Encoding -/

/-- The message of an event as this codec writes it. -/
def message (c : Codec) (e : Event) : EventMessage :=
  let filled := ({} : EventMessage).fill e
  if c.deterministic then filled.canonical else filled

/-- Bytes that do not exceed the limit. -/
def bounded (c : Codec) (bytes : Bytes) : Except (List Violation) Bytes :=
  if bytes.length ≤ c.maxMessageSize then .ok bytes
  else .error [.encodedSize bytes.length c.maxMessageSize]

def encode (c : Codec) (e : Event) : Except (List Violation) Bytes := c.bounded (c.message e).encode

def encodeBatch (c : Codec) (b : Batch) : Except (List Violation) Bytes :=
  c.bounded (BatchMessage.encode { events := b.events.map c.message })

/-! ### Encoding events of code points -/

/-- Texts are written before the limit is looked at, so that a surrogate is always reported. -/
def encodePoints (c : Codec) (e : Event CodePoints) : Except Error Bytes :=
  match e.inStrings? with
  | some e => (c.encode e).mapError .invalid
  | none => .error (.misuse .surrogate)

def encodeBatchPoints (c : Codec) (b : Batch CodePoints) : Except Error Bytes :=
  match b.inStrings? with
  | some b => (c.encodeBatch b).mapError .invalid
  | none => .error (.misuse .surrogate)

/-! ### Decoding -/

/-- A message read from bytes that do not exceed the limit. -/
def parse {α : Type} (c : Codec) (place : Place) (parser : Bytes → Option α) (bytes : Bytes) :
    Except Fault α :=
  if c.maxMessageSize < bytes.length then .error (.oversized bytes.length c.maxMessageSize)
  else match parser bytes with
    | some message => .ok message
    | none => .error (.unparseable place)

def decode (c : Codec) (bytes : Bytes) : Except DecodeError Event :=
  ((c.parse .event (EventMessage.parse maxDepth) bytes).bind EventMessage.toEvent).mapError
    fun fault => { fault }

def decodeBatch (c : Codec) (bytes : Bytes) : Except DecodeError Batch :=
  ((c.parse .batch (BatchMessage.parse maxDepth) bytes).mapError fun fault => { fault }).bind
    BatchMessage.toBatch

/-! ### Logged calls -/

private def debug (text : String) : List LogRecord := [⟨.debug, text⟩]

private def warning (text : String) : List LogRecord := [⟨.warning, text⟩]

def encodeLogged (c : Codec) (e : Event) : Logged (Except (List Violation) Bytes) :=
  let result := c.encode e
  match result with
  | .ok bytes => { result, log := debug s!"Encoded CloudEvent {e.id} into {bytes.length} bytes" }
  | .error _ => { result }

def encodeBatchLogged (c : Codec) (b : Batch) : Logged (Except (List Violation) Bytes) :=
  let result := c.encodeBatch b
  match result with
  | .ok bytes =>
    { result
      log := debug s!"Encoded batch of {b.length} CloudEvents into {bytes.length} bytes" }
  | .error _ => { result }

/-- A surrogate is the caller's error as well. -/
def encodePointsLogged (c : Codec) (e : Event CodePoints) : Logged (Except Error Bytes) :=
  match e.inStrings? with
  | some e => (c.encodeLogged e).map (·.mapError .invalid)
  | none => { result := .error (.misuse .surrogate) }

def encodeBatchPointsLogged (c : Codec) (b : Batch CodePoints) : Logged (Except Error Bytes) :=
  match b.inStrings? with
  | some b => (c.encodeBatchLogged b).map (·.mapError .invalid)
  | none => { result := .error (.misuse .surrogate) }

def decodeLogged (c : Codec) (bytes : Bytes) : Logged (Except DecodeError Event) :=
  let result := c.decode bytes
  match result with
  | .ok e => { result, log := debug s!"Decoded CloudEvent {e.id} from {bytes.length} bytes" }
  | .error e => { result, log := warning s!"Rejected CloudEvent payload: {e.message}" }

/-- The warning of a batch tells the position of the event beside the failure of that event. -/
def decodeBatchLogged (c : Codec) (bytes : Bytes) : Logged (Except DecodeError Batch) :=
  let result := c.decodeBatch bytes
  match result with
  | .ok b =>
    { result
      log := debug s!"Decoded batch of {b.length} CloudEvents from {bytes.length} bytes" }
  | .error ⟨fault, none⟩ =>
    { result, log := warning s!"Rejected CloudEventBatch payload: {fault.detail}" }
  | .error ⟨fault, some i⟩ =>
    { result, log := warning s!"Rejected CloudEventBatch payload at index {i}: {fault.detail}" }

end Codec

end CloudEvents
