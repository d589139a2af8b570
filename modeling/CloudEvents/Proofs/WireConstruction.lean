import CloudEvents.Candidate.Calls
import CloudEvents.Proofs.BatchDecoding

/-!
# Interpreting through the constructors

`EventMessage.toEvent` checks values that have their types already. The constructors of
`CloudEvents.Construction` take anything, and besides broken rules they report fields of the wrong
shape, and calls that make no sense. Here a message is interpreted by offering them what it holds,
part by part, as a caller would: timestamps, typed messages, attribute values, payloads, and last
the event. Around these calls stands one handler, which takes broken rules for a malformed envelope
and lets every other error pass.

The two ways agree (`EventMessage.construct_eq`). So the rules that decoding applies are those of
construction, at each of the levels, and the handler has nothing to let pass: what a message holds
always has the shape that the constructors ask for.

## Main definitions

* `Timestamp.construct`, `AttributeValue.construct`, `EventData.construct`, `Event.construct` —
  values from their fields
* `translated` — broken rules as a malformed envelope
* `positioned` — failures of an event attributed to its position
* `EventMessage.construct`, `BatchMessage.construct` — messages, interpreted by constructors

## Main results

* `Event.construct_eq` — an event is constructed from its own fields exactly when it breaks no rule
* `EventMessage.construct_eq`, `BatchMessage.construct_eq` — the two interpretations agree
-/

namespace CloudEvents

/-! ### Values from their fields -/

/-- The timestamp with the fields of another one. -/
def Timestamp.construct (t : Timestamp) : Except Error Timestamp :=
  (build (.ofFields [("seconds", .int t.seconds), ("nanos", .int t.nanos)])).toExcept .timestamp

theorem Timestamp.construct_eq (t : Timestamp) : t.construct = t.check.mapError .invalid := by
  have hshape : build (.ofFields [("seconds", .int t.seconds), ("nanos", .int t.nanos)])
      = (Built.value t).checked check := rfl
  rw [construct, hshape, Built.toExcept_checked_value]

/-- The attribute value of a kind with this content. A timestamp is constructed first. -/
def AttributeValue.construct (v : AttributeValue) : Except Error AttributeValue := do
  let content ← match v with
    | timestamp t => t.construct.map Candidate.timestamp
    | v => .ok v.content
  (build (.ofFields [("kind", .attributeKind v.kind), ("value", content)])).toExcept .attributeValue

theorem AttributeValue.ofKind_content (v : AttributeValue) : ofKind v.kind v.content = v.check := by
  rw [ofKind, ofContent?_content]

theorem AttributeValue.construct_eq (v : AttributeValue) :
    v.construct = v.check.mapError .invalid := by
  have hshape (kind : AttributeKind) (content : Candidate) :
      build (.ofFields [("kind", .attributeKind kind), ("value", content)])
        = (Built.value (kind, content)).checked fun part => ofKind part.1 part.2 := by
    cases kind <;> rfl
  have hcontent : (build
      (.ofFields [("kind", .attributeKind v.kind), ("value", v.content)])).toExcept
      .attributeValue = v.check.mapError .invalid := by
    rw [hshape, Built.toExcept_checked_value, ofKind_content]
  cases v with
  | timestamp t =>
    rw [construct, Timestamp.construct_eq]
    by_cases ht : t.violations = []
    · rw [Timestamp.check, ht]
      exact hcontent
    · have hcheck : t.check = .error t.violations :=
        Violation.accept_eq_error_iff.mpr ⟨ht, rfl⟩
      have hcheck' : (AttributeValue.timestamp t).check = .error t.violations :=
        Violation.accept_eq_error_iff.mpr ⟨ht, rfl⟩
      rw [hcheck, hcheck']
      rfl
  | _ => exact hcontent

/-- The payload of a kind with this content. A typed message is constructed first. -/
def EventData.construct (d : EventData) : Except Error EventData := do
  let content ← match d with
    | structured s =>
      (StructuredData.build (.ofFields [("type_url", .text s.typeUrl), ("value", .bytes s.value)])
        |>.toExcept .structuredData).map Candidate.structuredData
    | d => .ok d.content
  (build (.ofFields [("kind", .dataKind d.kind), ("value", content)])).toExcept .eventData

theorem EventData.construct_eq (d : EventData) : d.construct = .ok d := by
  cases d <;> rfl

/-- The event with the fields of another one. -/
def Event.construct (e : Event) : Except Error Event :=
  (build (.ofFields e.fields)).toExcept .event

theorem Event.construct_eq {e : Event} (h : e.attributes.names.Nodup) :
    e.construct = e.check.mapError .invalid := by
  rw [construct, build_fields h, Built.toExcept_checked_value]

/-- A batch is made of events as they are. -/
theorem Batch.ofCandidates_event (events : List Event) :
    Batch.ofCandidates (events.map .event) = .ok { events } := by
  have hread : Candidate.readEvents (.tuple (events.map .event)) = .value events := by
    show Built.collect _ = _
    rw [Built.collect_eq_value_iff]
    refine List.ext_getElem (by simp) fun i hi hi' => ?_
    simp
    rfl
  rw [ofCandidates, build]
  simp [Entries.optional, Entries.lookup_ofFields, NameMap.lookup_cons, hread]
  rfl

/-! ### Messages -/

/-- Broken rules, as a malformed envelope. All other errors stay as they are. -/
def translated {α : Type} (result : Except Error α) : Except Error α :=
  result.mapError fun
    | .invalid violations => .decode { fault := .invalid violations }
    | err => err

/-- A fault as it is raised inside the handler, where broken rules are still rules. -/
def Fault.raised : Fault → Error
  | invalid violations => .invalid violations
  | fault => .decode { fault }

theorem translated_mapError_raised {α : Type} (result : Except Fault α) :
    translated (result.mapError Fault.raised) = result.mapError fun fault => .decode { fault } := by
  cases result with
  | ok a => rfl
  | error fault => cases fault <;> rfl

/-- The value of an attribute, constructed from what its message holds. -/
def AttributeMessage.construct (name : String) (m : AttributeMessage) :
    Except Error AttributeValue :=
  match m.unknown, m.value with
  | [], some value => value.construct
  | [], none => .error (.decode { fault := .noValue name })
  | r :: _, _ =>
    if r.number ∉ attributeFields then
      .error (.decode { fault := .unknownField (.attributeValue name) r.number })
    else .error (.decode { fault := .wireType (.attributeValue name) r.number r.payload.wireType })

theorem AttributeMessage.construct_eq (name : String) (m : AttributeMessage) :
    m.construct name = (m.toValue name).mapError Fault.raised := by
  obtain ⟨value, unknown⟩ := m
  cases unknown with
  | cons r rest =>
    by_cases hr : r.number ∉ attributeFields
    · simp only [construct, toValue, if_pos hr]
      rfl
    · simp only [construct, toValue, if_neg hr]
      rfl
  | nil =>
    cases value with
    | none => rfl
    | some value =>
      show value.construct = (value.check.mapError Fault.invalid).mapError Fault.raised
      rw [AttributeValue.construct_eq]
      cases value.check <;> rfl

/-- The event of a message, constructed from its parts behind the handler. -/
def EventMessage.construct (m : EventMessage) : Except Error Event := do
  if let some fault := m.unknownFault then throw (.decode { fault })
  if m.missing ≠ [] then throw (.decode { fault := .missing m.missing })
  translated do
    let attributes ← m.attributes.mapM fun entry => do
      return (entry.1, ← entry.2.construct entry.1)
    let data ← m.data.mapM EventData.construct
    Event.construct
      { id := m.id, source := m.source, specVersion := m.specVersion, type := m.type
        attributes, data }

/-- **Constructors fail with broken rules only**, and decoding reports them. -/
theorem EventMessage.construct_eq {m : EventMessage} (h : m.attributes.names.Nodup) :
    m.construct = m.toEvent.mapError fun fault => .decode { fault } := by
  have hattributes : (m.attributes.mapM fun entry => do
      return (entry.1, ← entry.2.construct entry.1))
        = m.interpretAttributes.mapError Fault.raised := by
    rw [interpretAttributes, ← mapM_mapError]
    refine congrArg (m.attributes.mapM ·) (funext fun entry => ?_)
    rw [AttributeMessage.construct_eq]
    cases entry.2.toValue entry.1 <;> rfl
  have hdata : m.data.mapM EventData.construct = .ok m.data := by
    cases m.data with
    | none => rfl
    | some d =>
      show (some <$> d.construct) = _
      rw [EventData.construct_eq]
      rfl
  rw [construct, toEvent_eq, hattributes, hdata]
  cases hu : m.unknownFault with
  | some fault => rfl
  | none =>
    by_cases hm : m.missing = []
    · rw [hm]
      cases hi : m.interpretAttributes with
      | error fault => exact translated_mapError_raised (.error fault : Except Fault Event)
      | ok attributes =>
        let event : Event :=
          { id := m.id, source := m.source, specVersion := m.specVersion, type := m.type
            attributes, data := m.data }
        have hnames : event.attributes.names.Nodup := by
          obtain ⟨hentries, -⟩ := mapM_toValue_eq_ok_iff.mp hi
          rw [hentries, NameMap.names, List.map_map] at h
          exact h
        show translated event.construct = (event.check.mapError Fault.invalid).mapError _
        rw [Event.construct_eq hnames]
        cases event.check <;> rfl
    · rw [if_neg hm]
      show (if m.missing ≠ [] then _ else _) = _
      rw [if_pos hm]
      rfl

/-! ### Batches -/

/-- A failure to decode, attributed to a position in a batch. All other errors stay as they are. -/
def positioned {α : Type} (index : Nat) (result : Except Error α) : Except Error α :=
  result.mapError fun
    | .decode err => .decode (err.atIndex index)
    | err => err

/-- The batch of a message, each of its events constructed in turn. -/
def BatchMessage.construct (m : BatchMessage) : Except Error Batch := do
  if let some fault := m.unknownFault then throw (.decode { fault })
  let events ← m.events.zipIdx.mapM fun event => positioned event.2 event.1.construct
  Batch.ofCandidates (events.map .event)

theorem BatchMessage.construct_eq {m : BatchMessage}
    (h : ∀ event ∈ m.events, event.attributes.names.Nodup) :
    m.construct = m.toBatch.mapError .decode := by
  have hevents : (m.events.zipIdx.mapM fun event => positioned event.2 event.1.construct)
      = (m.events.zipIdx.mapM EventMessage.toEventAt).mapError .decode := by
    rw [← mapM_mapError]
    refine mapM_congr fun event hevent => ?_
    have hmem : event.1 ∈ m.events := List.fst_mem_of_mem_zipIdx hevent
    rw [EventMessage.construct_eq (h event.1 hmem), EventMessage.toEventAt]
    cases event.1.toEvent <;> rfl
  rw [construct, toBatch_eq, hevents]
  cases m.unknownFault with
  | some fault => rfl
  | none =>
    cases m.events.zipIdx.mapM EventMessage.toEventAt with
    | error err => rfl
    | ok events => exact Batch.ofCandidates_event events

end CloudEvents
