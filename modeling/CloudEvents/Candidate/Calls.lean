import CloudEvents.Candidate.Dump
import CloudEvents.Codec
import CloudEvents.Construction.Envelope

/-!
# Calls on candidates

The operations of events, batches and codecs, called on candidates. A call first finds out whether
its target is of the type that has the operation; if it is, the operation of that type does the
rest, and if it is not, the call is a misuse.

## Main definitions

* `Candidate.asEvent` and its companions — a candidate as the target of a call
* `Candidate.element` — the element at an index of any container
* `Candidate.getAttribute`, `Candidate.hasAttribute`, `Candidate.withoutAttribute`
* `Model.make` — a model called with named fields
* `Candidate.compare` — equality of two candidates of one type
* `Codec.ofCandidates`, `Codec.encodeCandidate`, `Codec.decodeCandidate` and their batch forms
-/

namespace CloudEvents

namespace Candidate

/-! ### Targets -/

private def target {α : Type} (found : Option α) : Except Error α :=
  match found with
  | some a => .ok a
  | none => .error (.misuse .noSuchOperation)

def asEvent (c : Candidate) : Except Error Event := target c.asEvent?

def asAttributeValue (c : Candidate) : Except Error AttributeValue := target c.asAttributeValue?

def asTimestamp (c : Candidate) : Except Error Timestamp := target c.asTimestamp?

def asDateTime : Candidate → Except Error DateTime
  | dateTime d => .ok d
  | _ => .error (.misuse .noSuchOperation)

/-- A sequence that can be asked for its length and its elements. -/
def asBatch : Candidate → Except Error Batch
  | batch b => .ok b
  | text _ | attributeKind _ | dataKind _ | bytes _ | byteArray _ | list _ | tuple _ | dict _ =>
    .error (.misuse .noSuchOperation)
  | _ => .error (.misuse .notIterable)

/-- The element at an index: of a sequence the one in that place, of a dictionary the value under
that key. -/
def element (c : Candidate) (index : Int) : Except Error Candidate :=
  let sought (found : Option Candidate) : Except Error Candidate :=
    match found with
    | some element => .ok element
    | none => .error (.misuse .indexOutOfRange)
  match c with
  | batch b => (b.get index).map .event
  | dict entries => match entries.find? fun entry => entry.1.same (.int index) with
    | some entry => .ok entry.2
    | none => .error (.misuse .noSuchKey)
  | text _ | attributeKind _ | dataKind _ | bytes _ | byteArray _ | list _ | tuple _ =>
    sought (c.items?.bind fun elements => elementAt? elements index)
  | _ => .error (.misuse .notIterable)

/-- The dump of a built value. -/
def dump (c : Candidate) : Except Error Candidate := target c.dump?

/-- Built values never change: assigning to a field is refused, whatever the field. -/
def assign (c : Candidate) (field : String) : Error :=
  match c.model? with
  | some model => .shape model [⟨[.field field], .frozenInstance⟩]
  | none => .misuse .noSuchOperation

/-- The attribute map of an event never changes. -/
def assignAttribute (c : Candidate) : Error :=
  match c.asEvent? with
  | some _ => .misuse .readOnly
  | none => .misuse .noSuchOperation

/-! ### Attributes by name -/

/-- Names are looked up, and only what can be a key can be looked up. -/
private def checkKey (name : Candidate) : Except Error Unit :=
  if name.isHashable then .ok () else .error (.misuse .notHashable)

def getAttribute (c name : Candidate) : Except Error AttributeValue := do
  let e ← c.asEvent
  checkKey name
  match name.text? with
  | some name => e.getAttribute name
  | none => throw (.notSet name.display)

def hasAttribute (c name : Candidate) : Except Error Bool := do
  let e ← c.asEvent
  checkKey name
  match name.text? with
  | some name => return e.hasAttribute name
  | none => return false

def withoutAttribute (c name : Candidate) : Except Error Event := do
  let e ← c.asEvent
  match name.text? with
  | some name => e.withoutAttribute name
  | none => (e.check).mapError .invalid

def withAttribute (c name value : Candidate) : Except Error Event := do
  let e ← c.asEvent
  checkKey name
  e.offerAttribute name value

def withData (c data : Candidate) : Except Error Event := do (← c.asEvent).offerData data

/-! ### Equality -/

/-- The floating-point value that is not a number, and is equal to nothing. -/
def isNan : Candidate → Bool
  | float value => value.isNan
  | _ => false

/-- Equality of candidates, of which no two of different types are equal. Equal candidates are to
agree as keys too, so they have to be such that can be keys. -/
def compare (a b : Candidate) : Except Error Bool :=
  if a.typeName ≠ b.typeName ∨ a.isNan ∨ !a.same b then .ok false
  else if a.isHashable then .ok true
  else .error (.misuse .notHashable)

end Candidate

/-! ### Models -/

/-- A value of a model from its fields. -/
def Model.make (model : Model) (fields : Entries) : Except Error Candidate :=
  match model with
  | timestamp => ((Timestamp.build fields).map .timestamp).toExcept model
  | attributeValue => ((AttributeValue.build fields).map .attributeValue).toExcept model
  | structuredData => ((StructuredData.build fields).map .structuredData).toExcept model
  | eventData => ((EventData.build fields).map .eventData).toExcept model
  | event => ((Event.build fields).map .event).toExcept model
  | batch => ((Batch.build fields).map .batch).toExcept model

/-! ### Codecs -/

namespace Codec

/-- A codec with the settings that are given. A limit has to be an integer; any candidate says
whether entries are sorted. -/
def ofCandidates (maxMessageSize deterministic : Option Candidate) : Except Misuse Codec :=
  let sorted := deterministic.all fun c => !c.isFalsy
  match maxMessageSize with
  | none => .ok { deterministic := sorted }
  | some (.int limit) => ofSettings limit sorted
  | some _ => .error .limitNotInteger

def encodeCandidate (c : Codec) (target : Candidate) : Logged (Except Error Bytes) :=
  match target.asEvent? with
  | some e => (c.encodeLogged e).map (·.mapError .invalid)
  | none => { result := .error (.misuse .notAnEvent) }

/-- The batch of any container of events. -/
def batchOf (target : Candidate) : Except Misuse Batch :=
  match target.items? with
  | none => .error .notIterable
  | some elements =>
    match elements.mapM Candidate.asEvent? with
    | some events => .ok { events }
    | none => .error .notAnEvent

def encodeBatchCandidate (c : Codec) (target : Candidate) : Logged (Except Error Bytes) :=
  match batchOf target with
  | .ok b => (c.encodeBatchLogged b).map (·.mapError .invalid)
  | .error cause => { result := .error (.misuse cause) }

def decodeCandidate (c : Codec) (data : Candidate) : Logged (Except Error Event) :=
  match data with
  | .bytes b | .byteArray b => (c.decodeLogged b).map (·.mapError .decode)
  | _ => { result := .error (.misuse .notBytes) }

def decodeBatchCandidate (c : Codec) (data : Candidate) : Logged (Except Error Batch) :=
  match data with
  | .bytes b | .byteArray b => (c.decodeBatchLogged b).map (·.mapError .decode)
  | _ => { result := .error (.misuse .notBytes) }

end Codec

end CloudEvents
