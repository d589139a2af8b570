import CloudEvents.Construction.Values

/-!
# Building events and batches

An event from all its fields (`Event.build`), from loose arguments (`Event.create`), or from another
event and one new part; a batch from its fields or from a list of events.

Loose arguments are looked at in this order: the required ones have to be given, the attributes have
to make a dictionary, and at most one payload may be set. Several payloads are a matter of the
rules, and are reported with the rules that the other arguments break, before the shape of any
argument is looked at. A single payload that is not of its kind is reported alone.

## Main definitions

* `Event.build`, `Batch.build` — from fields
* `EventArguments`, `Event.create` — from loose arguments
* `Event.offerAttribute`, `Event.offerData` — from an event and a candidate for one part
* `Batch.ofCandidates`

## Main results

* `Event.build_fields` — an event is built again from its own fields
* `Event.offerAttribute_attributeValue`, `Event.offerData_eventData` — offering a built part is
  setting it
-/

namespace CloudEvents

/-! ### Events from fields -/

namespace Candidate

def asTimestamp? : Candidate → Option Timestamp
  | timestamp value => some value
  | _ => none

def asAttributeValue? : Candidate → Option AttributeValue
  | attributeValue value => some value
  | _ => none

def asEventData? : Candidate → Option EventData
  | eventData value => some value
  | _ => none

def asEvent? : Candidate → Option Event
  | event value => some value
  | _ => none

/-- The entry of an attribute map. -/
def readAttribute (entry : Candidate × Candidate) : Built (String × AttributeValue) :=
  (Built.value Prod.mk
    |>.apply (entry.1.readText.under (.field "[key]"))
    |>.apply (entry.2.readModel asAttributeValue? AttributeValue.build)).under entry.1.step

/-- A map of attributes. -/
def readAttributes : Candidate → Built (NameMap AttributeValue)
  | dict entries => (Built.collect (entries.map readAttribute)).map NameMap.ofList
  | _ => .issue .dictType

/-- A payload or none. -/
def readData : Candidate → Built (Option EventData)
  | null => .value none
  | c => (c.readModel asEventData? EventData.build).map some

end Candidate

/-- An event from its fields. -/
def Event.build (fields : Entries) : Built Event :=
  (Built.value Event.mk
    |>.apply (fields.required "id" Candidate.readText)
    |>.apply (fields.required "source" Candidate.readText)
    |>.apply (fields.required "spec_version" Candidate.readText)
    |>.apply (fields.required "type" Candidate.readText)
    |>.apply (fields.optional "attributes" [] Candidate.readAttributes)
    |>.apply (fields.optional "data" none Candidate.readData)
    |>.alongside (fields.nothingBut ["id", "source", "spec_version", "type", "attributes", "data"])
  ).checked Event.check

/-! ### Events from loose arguments -/

/-- The arguments of `Event.create`; those that were left out are `none`. -/
structure EventArguments where
  id : Option Candidate := none
  source : Option Candidate := none
  specVersion : Option Candidate := none
  type : Option Candidate := none
  attributes : Option Candidate := none
  binaryData : Option Candidate := none
  textData : Option Candidate := none
  structuredData : Option Candidate := none

namespace EventArguments

/-- The argument of a required attribute. -/
def required (a : EventArguments) : RequiredField → Option Candidate
  | .id => a.id
  | .source => a.source
  | .specVersion => a.specVersion
  | .type => a.type

/-- The argument of a payload. -/
def payload (a : EventArguments) : DataKind → Option Candidate
  | .binary => a.binaryData
  | .text => a.textData
  | .structured => a.structuredData

/-- The payloads that are set, with their kinds. Nothing counts as not set. -/
def payloads (a : EventArguments) : List (DataKind × Candidate) :=
  DataKind.all.filterMap fun kind =>
    match a.payload kind with
    | none | some .null => none
    | some c => some (kind, c)

/-- The attributes as a dictionary. Whatever is empty stands for the empty one. -/
def attributeEntries (a : EventArguments) : Except Misuse Entries :=
  match a.attributes with
  | none => .ok []
  | some c => if c.isFalsy then .ok [] else c.toEntries

/-- The rule that a key breaks as a name of an optional attribute. -/
def keyViolation (key : Candidate) : Option Violation :=
  match key.text? with
  | some name => nameViolation name
  | none => if key.isFalsy then some .emptyName else none

/-- The rules that the arguments break together with `attributes`, regardless of their shape. -/
def violations (a : EventArguments) (attributes : Entries) : List Violation :=
  requiredViolations (fun f => (a.required f).all Candidate.isFalsy)
    ++ attributes.filterMap fun entry => keyViolation entry.1

/-- The fields of an event with these arguments. -/
def fields (a : EventArguments) (attributes : Entries) (data : Candidate) : Entries :=
  .ofFields
    (RequiredField.all.filterMap (fun f => (a.required f).map fun c => (f.name, c))
      ++ [("attributes", .dict attributes), ("data", data)])

end EventArguments

/-- An event from loose arguments. -/
def Event.create (a : EventArguments) : Except Error Event := do
  if RequiredField.all.any fun f => (a.required f).isNone then throw (.misuse .arguments)
  let attributes ← a.attributeEntries.mapError .misuse
  match a.payloads with
  | [] => ((Event.build (a.fields attributes .null)).toExcept .event)
  | [(kind, c)] =>
    let data ← (EventData.ofKind kind c).mapError .invalid
    (Event.build (a.fields attributes (.eventData data))).toExcept .event
  | several =>
    throw (.invalid (a.violations attributes ++ [.severalPayloads (several.map Prod.fst)]))

/-! ### Events from events -/

namespace Event

/-- The event with a candidate in the place of one field. -/
def offerField (e : Event) (name : String) (c : Candidate) : Except Error Event :=
  let fields := e.fields.map fun field => if field.1 = name then (name, c) else field
  (build (.ofFields fields)).toExcept .event

/-- The event with a candidate as the attribute of a name. A reserved name is refused before the
candidate is looked at. -/
def offerAttribute (e : Event) (name value : Candidate) : Except Error Event :=
  if reservedNames.any name.isText then .error (.reservedName name.display)
  else
    match Entries.add e.attributeEntries (name, value) with
    | .ok attributes => e.offerField "attributes" (.dict attributes)
    | .error cause => .error (.misuse cause)

/-- The event with a candidate as its payload. -/
def offerData (e : Event) (data : Candidate) : Except Error Event := e.offerField "data" data

/-! ### Built parts, offered again -/

/-- The entries of a map with one more attribute. -/
theorem add_attributeEntries (e : Event) (name : String) (value : AttributeValue) :
    Entries.add e.attributeEntries (.text name, .attributeValue value)
      = .ok { e with attributes := e.attributes.insert name value }.attributeEntries := by
  have h (m : NameMap AttributeValue) :
      Entries.insert (.text name) (.attributeValue value)
          (m.map fun entry => (.text entry.1, .attributeValue entry.2))
        = (NameMap.insert name value m).map fun entry =>
          (.text entry.1, .attributeValue entry.2) := by
    induction m with
    | nil => rfl
    | cons entry rest ih =>
      by_cases hn : entry.1 = name
      · simp [Entries.insert, NameMap.insert, Candidate.same_text, hn]
      · simp [Entries.insert, NameMap.insert, Candidate.same_text, hn, ih]
  rw [Entries.add, if_pos (by simp [Candidate.isHashable])]
  exact congrArg Except.ok (h e.attributes)

theorem readAttributes_attributeEntries {e : Event} (h : e.attributes.names.Nodup) :
    Candidate.readAttributes (.dict e.attributeEntries) = .value e.attributes := by
  have hc : Built.collect (e.attributeEntries.map Candidate.readAttribute)
      = .value e.attributes := by
    rw [Built.collect_eq_value_iff, attributeEntries, List.map_map]
    exact List.map_congr_left fun entry _ => rfl
  rw [Candidate.readAttributes, hc, Built.map, NameMap.ofList_eq_self h]

theorem readData_dataCandidate (e : Event) :
    Candidate.readData e.dataCandidate = .value e.data := by
  rw [dataCandidate]
  cases e.data <;> rfl

/-- An event is built again from its fields, and checked again. -/
theorem build_fields {e : Event} (h : e.attributes.names.Nodup) :
    build (.ofFields e.fields) = (Built.value e).checked check := by
  have ha : (Entries.ofFields e.fields).optional "attributes" [] Candidate.readAttributes
      = .value e.attributes := by
    simp [Entries.optional, Entries.lookup_ofFields, NameMap.lookup_cons, fields,
      readAttributes_attributeEntries h, Built.under]
  have hd : (Entries.ofFields e.fields).optional "data" none Candidate.readData
      = .value e.data := by
    simp [Entries.optional, Entries.lookup_ofFields, NameMap.lookup_cons, fields,
      readData_dataCandidate, Built.under]
  rw [build, ha, hd]
  rfl

/-- Offering a built value for an attribute sets that attribute. -/
theorem offerAttribute_attributeValue {e : Event} (h : e.attributes.names.Nodup) (name : String)
    (value : AttributeValue) :
    e.offerAttribute (.text name) (.attributeValue value) = e.withAttribute name value := by
  have hr : reservedNames.any (Candidate.text name).isText = decide (name ∈ reservedNames) := by
    simp [Candidate.isText, Candidate.text?, List.any_eq, eq_comm]
  have hf : e.offerField "attributes"
      (.dict { e with attributes := e.attributes.insert name value }.attributeEntries)
        = ({ e with attributes := e.attributes.insert name value }.check).mapError .invalid := by
    rw [← Built.toExcept_checked_value .event, ← build_fields (NameMap.nodup_insert h name value),
      offerField]
    simp [fields, dataCandidate]
  rw [offerAttribute, withAttribute, hr, add_attributeEntries, ← hf]
  by_cases hm : name ∈ reservedNames <;> simp [hm, Candidate.display]

/-- Offering a built payload, or nothing, sets the payload. -/
theorem offerData_eventData {e : Event} (h : e.attributes.names.Nodup) (data : Option EventData) :
    e.offerData ((data.map .eventData).getD .null) = e.withData data := by
  rw [withData, ← Built.toExcept_checked_value .event, ← @build_fields { e with data } h, offerData,
    offerField]
  simp [fields, attributeEntries, dataCandidate]

end Event

/-! ### Batches -/

/-- A sequence of events, each at its index. Whatever has elements is a sequence, but for texts,
byte strings and dictionaries. -/
def Candidate.readEvents (c : Candidate) : Built (List Event) :=
  match c with
  | .text _ | .attributeKind _ | .dataKind _ | .bytes _ | .byteArray _ | .dict _ =>
    .issue .tupleType
  | c => match c.items? with
    | some elements =>
      .collect (elements.zipIdx.map fun (element, i) =>
        (element.readModel asEvent? Event.build).under (.index i))
    | none => .issue .tupleType

/-- A batch from its fields. Its one field has two names, of which `events` comes first. -/
def Batch.build (fields : Entries) : Built Batch :=
  let name := if (fields.lookup "events").isSome then "events" else "entries"
  Built.value Batch.mk
    |>.apply (fields.optional name [] Candidate.readEvents)
    |>.alongside (fields.nothingBut [name])

/-- The batch of candidates for its events. -/
def Batch.ofCandidates (events : List Candidate) : Except Error Batch :=
  (build (.ofFields [("entries", .tuple events)])).toExcept .batch

end CloudEvents
