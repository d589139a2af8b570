import CloudEvents.Proofs.DroppedFields
import CloudEvents.Proofs.FieldOrder
import CloudEvents.Proofs.WireLayout

/-!
# Inserted fields

One record more than was written, at any of the three levels at which an event keeps its own fields:
among those of the event, inside the entry of an attribute, or inside the value of one. The record
is spelled in any way that the format allows, and the lengths around it are written anew. Such bytes
are always refused, and what is said about them tells a field of a newer schema from a malformed
one.

The class of the refusal follows the way that the record takes. A message keeps a record that it
does not declare aside, and goes on. At the level of the event what is kept aside is the first thing
that is looked at. In an entry it is not looked at at all: an entry with anything aside is itself
kept aside as a whole, by the event, and so it is malformed, whatever the number of the record. The
value of an attribute is looked at when its turn comes, after the texts of the event and the
attributes that were written before it, and all of these are in order.

## Main definitions

* `splice` — records as bytes, with bytes put in between two of them
* `Event.recordsAround` — the records of an event, with another one in the place of an attribute

## Main results

* `readRecords_splice` — bytes that spell a record are read in their place
* `AttributeMessage.merge_splice`, `EntryMessage.parse_splice` — what is kept aside
* `Codec.decode_inserted` — the class of every refusal
-/

namespace CloudEvents

variable {depth : Nat} {r : Record} {piece : Bytes}

/-! ### Bytes between records -/

/-- Records as bytes, with other bytes put in behind the first `i` of them. -/
def splice (rs : List Record) (i : Nat) (piece : Bytes) : Bytes :=
  encodeRecords (rs.take i) ++ piece ++ encodeRecords (rs.drop i)

theorem length_encodeRecords_le_splice (rs : List Record) (i : Nat) (piece : Bytes) :
    (encodeRecords rs).length ≤ (splice rs i piece).length := by
  have hsplit : encodeRecords rs = encodeRecords (rs.take i) ++ encodeRecords (rs.drop i) := by
    rw [← encodeRecords_append, List.take_append_drop]
  simp only [splice, hsplit, List.length_append]
  omega

theorem number_pos_of_spell (h : RecordsSpell depth piece [r]) : 0 < r.number := by
  cases h with
  | record htag _ _ => exact htag.number_pos
  | group hstart _ _ _ => exact hstart.number_pos

theorem readRecords_splice {rs : List Record} (hrs : ∀ r ∈ rs, r.Fits depth)
    (hpiece : RecordsSpell depth piece [r]) (i : Nat) :
    readRecords depth [] (splice rs i piece) = some (rs.take i ++ r :: rs.drop i) := by
  have hfront : ∀ r ∈ rs.take i, r.Fits depth := fun r hr => hrs r (List.mem_of_mem_take hr)
  have hback : ∀ r ∈ rs.drop i, r.Fits depth := fun r hr => hrs r (List.mem_of_mem_drop hr)
  rw [splice, List.append_assoc, readRecords_encodeRecords_append hfront,
    readRecords_of_spell_append hpiece (Nat.le_refl depth), readRecords_encodeRecords hback]
  rfl

/-! ### Numbers that a message knows -/

theorem mem_eventFields_iff {n : Nat} : n ∈ eventFields ↔ 0 < n ∧ n ≤ 8 := by
  simp only [eventFields, RequiredField.all, RequiredField.fieldNumber, attributesField,
    DataKind.all, DataKind.fieldNumber, List.map_cons, List.map_nil, List.cons_append,
    List.nil_append, List.mem_cons, List.not_mem_nil, or_false]
  omega

theorem mem_attributeFields_iff {n : Nat} : n ∈ attributeFields ↔ 0 < n ∧ n ≤ 7 := by
  simp only [attributeFields, AttributeKind.all, AttributeKind.fieldNumber, List.map_cons,
    List.map_nil, List.mem_cons, List.not_mem_nil, or_false]
  omega

namespace MessageType

theorem declares_event_iff :
    event.Declares r ↔ r.payload.wireType = 2 ∧ 0 < r.number ∧ r.number ≤ 8 := by
  simp only [Declares, fields_event, List.mem_cons, Prod.mk.injEq, List.not_mem_nil, or_false]
  omega

theorem declares_entry_iff :
    entry.Declares r ↔ r.payload.wireType = 2 ∧ (r.number = 1 ∨ r.number = 2) := by
  simp only [Declares, fields_entry, List.mem_cons, Prod.mk.injEq, List.not_mem_nil, or_false]
  omega

theorem number_le_of_declares_value (h : value.Declares r) : r.number ≤ 7 := by
  simp only [Declares, fields_value, List.mem_cons, Prod.mk.injEq, List.not_mem_nil, or_false] at h
  omega

end MessageType

/-! ### Values and entries -/

/-- A value is read beside the undeclared record, wherever that one stands. -/
theorem AttributeMessage.merge_splice {v : AttributeValue} (hv : v.Valid)
    (hpiece : RecordsSpell depth piece [r]) (hr : ¬ MessageType.value.Declares r) {i : Nat}
    (h : (splice [v.record] i piece).length ≤ maxLength) :
    AttributeMessage.merge depth {} (splice [v.record] i piece)
      = some { value := some v, unknown := [r] } := by
  have hfits : ∀ r ∈ [v.record], r.Fits depth :=
    List.forall_mem_singleton.mpr (AttributeValue.fits_record
      (Nat.le_trans (length_encodeRecords_le_splice [v.record] i piece) h))
  rw [merge, mergeMessage_of_readRecords (readRecords_splice hfits hpiece i)]
  cases i with
  | zero => simp [apply_of_not_declares _ hr, apply_record _ hv]
  | succ i => simp [apply_of_not_declares _ hr, apply_record _ hv]

namespace EntryMessage

theorem apply_of_not_declares (m : EntryMessage) (h : ¬ MessageType.entry.Declares r) :
    m.apply depth r = some { m with unknown := m.unknown ++ [r] } := by
  rw [EntryMessage.apply]
  split
  case h_3 => rfl
  all_goals
    rename_i hnumber hpayload
    exact absurd (by simp [MessageType.Declares, Payload.wireType, hnumber, hpayload]) h

/-- An entry is read beside the undeclared record, wherever that one stands. -/
theorem parse_splice {name : String} {v : AttributeValue} (hv : v.Valid)
    (hpiece : RecordsSpell depth piece [r]) (hr : ¬ MessageType.entry.Declares r) {i : Nat}
    (h : (splice (entryFields name (AttributeMessage.encode { value := some v })) i piece).length
      ≤ maxLength) :
    EntryMessage.parse depth
        (splice (entryFields name (AttributeMessage.encode { value := some v })) i piece)
      = some { key := name, value := { value := some v }, unknown := [r] } := by
  have hlength := Nat.le_trans (length_encodeRecords_le_splice _ i piece) h
  have hvalue : AttributeMessage.merge (depth - 1) {} (AttributeMessage.encode { value := some v })
      = some { value := some v } :=
    AttributeMessage.merge_encode hv (Nat.le_trans (length_value_le name _) hlength)
  have happlyName (m : EntryMessage) :
      m.apply depth ⟨1, .delimited (Bytes.ofText name)⟩ = some { m with key := name } := by
    simp [apply, Bytes.toText?_ofText]
  have happlyValue {m : EntryMessage} (hm : m.value = {}) :
      m.apply depth ⟨2, .delimited (AttributeMessage.encode { value := some v })⟩
        = some { m with value := { value := some v } } := by
    simp [apply, hm, hvalue]
  rw [parse, mergeMessage_of_readRecords (readRecords_splice (fits_entryFields hlength) hpiece i)]
  -- the record stands before the name, between the name and the value, or behind the value
  rcases i with _ | _ | i <;>
    simp [entryFields, happlyName, happlyValue, apply_of_not_declares _ hr]

end EntryMessage

/-! ### Events -/

/-- The records of an event, with one in the place of an attribute: those before it, and those
behind. -/
def Event.recordsAround (e : Event) (front : NameMap AttributeValue) (r : Record)
    (back : NameMap AttributeValue) : List Record :=
  RequiredField.all.map e.requiredRecord ++ front.map attributeRecord
    ++ r :: (back.map attributeRecord ++ (e.data.map EventData.record).toList)

/-- An event as bytes, with an entry of these bytes in the place of an attribute. -/
def Event.encodeAround (e : Event) (front : NameMap AttributeValue) (entry : Bytes)
    (back : NameMap AttributeValue) : Bytes :=
  encodeRecords (e.recordsAround front ⟨5, .delimited entry⟩ back)

/-- Without the record, these are the records of the event without the attribute. -/
theorem Event.records_append (e : Event) (front back : NameMap AttributeValue) :
    { e with attributes := front ++ back }.records RequiredField.all
      = RequiredField.all.map e.requiredRecord ++ front.map attributeRecord
        ++ (back.map attributeRecord ++ (e.data.map EventData.record).toList) := by
  have hrequired := e.requiredRecord_with (front ++ back) e.data
  rw [records, hrequired]
  simp

/-- With the record of the attribute, these are the records of the event. -/
theorem Event.recordsAround_attributeRecord (e : Event) (front back : NameMap AttributeValue)
    (a : String × AttributeValue) :
    e.recordsAround front (attributeRecord a) back
      = { e with attributes := front ++ a :: back }.records RequiredField.all := by
  rw [records_append]
  rfl

theorem Event.mem_recordsAround_iff {e : Event} {front back : NameMap AttributeValue}
    {r' : Record} :
    r' ∈ e.recordsAround front r back
      ↔ r' = r ∨ r' ∈ { e with attributes := front ++ back }.records RequiredField.all := by
  simp only [records_append, recordsAround, List.mem_append, List.mem_cons]
  exact or_left_comm

theorem Event.fits_recordsAround {e : Event} {front back : NameMap AttributeValue} {body : Bytes}
    (h : (e.encodeAround front body back).length ≤ maxLength) :
    ∀ r' ∈ e.recordsAround front ⟨5, .delimited body⟩ back, r'.Fits depth := by
  intro r' hr'
  rcases mem_recordsAround_iff.mp hr' with rfl | hmem
  · exact Record.fits_of_mem h hr' (by decide) (by decide)
  · obtain ⟨number, bytes, rfl, hpos, hle⟩ := exists_delimited_of_mem_records hmem
    exact Record.fits_of_mem h hr' hpos hle

/-- Without one of its attributes an event is as valid as with it. -/
theorem Event.valid_without {e : Event} {front back : NameMap AttributeValue}
    {a : String × AttributeValue} (h : { e with attributes := front ++ a :: back }.Valid) :
    { e with attributes := front ++ back }.Valid := by
  have hsub : List.Sublist (front ++ back) (front ++ a :: back) :=
    (List.append_sublist_append_left front).mpr (List.sublist_cons_self _ _)
  exact h.of_subset ((hsub.map Prod.fst).nodup h.names_nodup) (fun _ hm => hsub.subset hm) e.data

namespace EventMessage

theorem parse_encodeAround {e : Event} {front back : NameMap AttributeValue} {body : Bytes}
    (hlength : (e.encodeAround front body back).length ≤ maxLength) {m : EventMessage}
    (h : (e.recordsAround front ⟨5, .delimited body⟩ back).foldlM (apply depth) {} = some m) :
    EventMessage.parse depth (e.encodeAround front body back) = some m := by
  rw [parse, Event.encodeAround, mergeMessage_encodeRecords (Event.fits_recordsAround hlength)]
  exact h

theorem apply_of_not_declares (m : EventMessage) (h : ¬ MessageType.event.Declares r) :
    m.apply depth r = some { m with unknown := m.unknown ++ [r] } := by
  rw [EventMessage.apply]
  split
  case h_9 => rfl
  all_goals
    rename_i hnumber hpayload
    exact absurd (by simp [MessageType.Declares, Payload.wireType, hnumber, hpayload]) h

/-- An entry with something aside is itself kept aside. -/
theorem apply_overfull (m : EventMessage) {body : Bytes} {entry : EntryMessage}
    (hentry : EntryMessage.parse (depth - 1) body = some entry) (hunknown : entry.unknown ≠ []) :
    m.apply depth ⟨5, .delimited body⟩
      = some { m with unknown := m.unknown ++ [⟨5, .delimited body⟩] } := by
  show (EntryMessage.parse (depth - 1) body).map (m.addEntry _) = _
  rw [hentry, Option.map_some, addEntry, if_neg (by simpa using hunknown)]

/-- Among records that are taken in, one that is kept aside is the only one. -/
theorem exists_foldlM_aside {front back : List Record} {m : EventMessage}
    (h : (front ++ back).foldlM (apply depth) {} = some m) (hm : m.unknown = [])
    (hr : ∀ m : EventMessage, m.apply depth r = some { m with unknown := m.unknown ++ [r] }) :
    ∃ m', (front ++ r :: back).foldlM (apply depth) {} = some m' ∧ m'.unknown = [r] := by
  have hkeep := map_unknown_of_foldlM h hm
  obtain ⟨m₁, hm₁, hunknown₁⟩ := Option.map_eq_some_iff.mp
    (foldlM_view_eq (fun r' hr' => hkeep r' (List.mem_append_left back hr')) ({} : EventMessage))
  obtain ⟨m₂, hm₂, hunknown₂⟩ := Option.map_eq_some_iff.mp
    (foldlM_view_eq (fun r' hr' => hkeep r' (List.mem_append_right front hr'))
      { m₁ with unknown := m₁.unknown ++ [r] })
  refine ⟨m₂, ?_, ?_⟩
  · rw [List.foldlM_append, hm₁]
    show (r :: back).foldlM (apply depth) m₁ = _
    rw [List.foldlM_cons, hr]
    exact hm₂
  · rw [hunknown₂, hunknown₁]
    rfl

/-- What an event keeps aside is the first thing that is reported. -/
theorem toEvent_of_aside {m : EventMessage} (h : m.unknown = [r]) :
    m.toEvent = .error
      (if r.number ∉ eventFields then .unknownField .event r.number
        else if r.payload.wireType = 2 then .overfullEntry
        else .wireType .event r.number r.payload.wireType) := by
  rw [toEvent_eq, unknownFault, h]
  rfl

/-- The message of an event of which one entry has a value that an event cannot have. -/
def ofEventAround (e : Event) (front : NameMap AttributeValue) (name : String)
    (value : AttributeMessage) (back : NameMap AttributeValue) : EventMessage :=
  { ofEvent e with
    attributes := front.map (fun entry => (entry.1, { value := some entry.2 }))
      ++ (name, value) :: back.map fun entry => (entry.1, { value := some entry.2 }) }

theorem foldlM_recordsAround {e : Event} {front back : NameMap AttributeValue} {name : String}
    {value : AttributeMessage} (hnodup : (NameMap.names front ++ name :: NameMap.names back).Nodup)
    (hvalues : ∀ entry ∈ front ++ back, entry.2.Valid)
    (hr : ∀ m : EventMessage, m.apply depth r
      = some { m with attributes := m.attributes.insert name value })
    (hfits : ∀ r' ∈ e.recordsAround front r back, r'.Fits depth) :
    (e.recordsAround front r back).foldlM (apply depth) {}
      = some (ofEventAround e front name value back) := by
  obtain ⟨hvaluesFront, hvaluesBack⟩ := List.forall_mem_append.mp hvalues
  simp only [Event.recordsAround, List.forall_mem_append, List.forall_mem_cons] at hfits
  obtain ⟨⟨-, hfitsFront⟩, -, hfitsBack, hfitsData⟩ := hfits
  let read (entries : NameMap AttributeValue) : NameMap AttributeMessage :=
    entries.map fun entry => (entry.1, { value := some entry.2 })
  have hnames (entries : NameMap AttributeValue) : (read entries).names = entries.names := by
    simp [read, NameMap.names]
  -- the message after the texts, the attributes in front, the entry, those behind and the payload
  have htexts : (RequiredField.all.map e.requiredRecord).foldlM (apply depth) {}
      = some { ofEvent e with attributes := [], data := none } :=
    foldlM_texts fun f _ => RequiredField.mem_all f
  have hfront : (front.map attributeRecord).foldlM (apply depth)
        { ofEvent e with attributes := [], data := none }
      = some { ofEvent e with attributes := read front, data := none } :=
    foldlM_attributeRecords (List.nodup_append.mp hnodup).1 hvaluesFront
      (List.forall_mem_map.mp hfitsFront)
  have hnew : name ∉ (read front).names := by
    rw [hnames]
    intro hm
    exact (List.nodup_append.mp hnodup).2.2 name hm name List.mem_cons_self rfl
  have hmiddle : [r].foldlM (apply depth) { ofEvent e with attributes := read front, data := none }
      = some { ofEvent e with attributes := read front ++ [(name, value)], data := none } := by
    rw [List.foldlM_cons, hr, NameMap.insert_of_not_mem hnew]
    rfl
  have hback : (back.map attributeRecord).foldlM (apply depth)
        { ofEvent e with attributes := read front ++ [(name, value)], data := none }
      = some { ofEvent e with
          attributes := read front ++ [(name, value)] ++ read back, data := none } := by
    refine foldlM_attributeRecords ?_ hvaluesBack (List.forall_mem_map.mp hfitsBack)
    have hheld : NameMap.names (read front ++ [(name, value)]) = NameMap.names front ++ [name] := by
      rw [NameMap.names, List.map_append]
      exact congrArg (· ++ [name]) (hnames front)
    rwa [hheld, List.append_assoc]
  have hdata : (e.data.map EventData.record).toList.foldlM (apply depth)
        { ofEvent e with attributes := read front ++ [(name, value)] ++ read back, data := none }
      = some (ofEventAround e front name value back) := by
    refine (foldlM_dataRecord fun d hd => hfitsData _ ?_).trans ?_
    · exact Option.mem_toList.mpr (Option.map_eq_some_iff.mpr ⟨d, hd, rfl⟩)
    · simp [ofEventAround, read, ofEvent]
  have hall : e.recordsAround front r back = RequiredField.all.map e.requiredRecord
      ++ front.map attributeRecord ++ [r] ++ back.map attributeRecord
      ++ (e.data.map EventData.record).toList := by
    simp [Event.recordsAround]
  rw [hall]
  exact foldlM_append_eq_some (foldlM_append_eq_some (foldlM_append_eq_some
    (foldlM_append_eq_some htexts hfront) hmiddle) hback) hdata

/-- An event whose texts are there, and whose first bad attribute is this one, is refused for it. -/
theorem toEvent_ofEventAround {e : Event} (hrequired : ∀ f, e.required f ≠ "")
    {front back : NameMap AttributeValue} (hvalues : ∀ entry ∈ front, entry.2.Valid) {name : String}
    {value : AttributeMessage} {fault : Fault} (h : value.toValue name = .error fault) :
    (ofEventAround e front name value back).toEvent = .error fault := by
  have hunknown : (ofEventAround e front name value back).unknownFault = none := rfl
  have hmissing : (ofEventAround e front name value back).missing = [] := by
    refine missing_eq_nil_iff.mpr fun f => ?_
    have hsame : (ofEventAround e front name value back).required f = e.required f := by
      cases f <;> rfl
    rw [hsame]
    exact hrequired f
  have hattributes : (ofEventAround e front name value back).interpretAttributes
      = .error fault := by
    rw [interpretAttributes, ofEventAround, List.mapM_append,
      mapM_toValue_eq_ok_iff.mpr ⟨rfl, hvalues⟩, List.mapM_cons, h]
    rfl
  rw [toEvent_eq, hunknown, hmissing, hattributes]
  rfl

end EventMessage

/-- Beside an undeclared record, a value is refused for it. -/
theorem AttributeMessage.toValue_of_aside (name : String) (v : AttributeValue) :
    AttributeMessage.toValue name { value := some v, unknown := [r] }
      = .error (if r.number ∉ attributeFields then .unknownField (.attributeValue name) r.number
        else .wireType (.attributeValue name) r.number r.payload.wireType) := by
  show (if r.number ∉ attributeFields then Except.error _ else Except.error _) = _
  exact (apply_ite Except.error _ _ _).symm

namespace Codec

variable {c : Codec}

theorem decode_of_toEvent {bytes : Bytes} (hsize : bytes.length ≤ c.maxMessageSize)
    {m : EventMessage} (h : EventMessage.parse maxDepth bytes = some m) {fault : Fault}
    (hfault : m.toEvent = .error fault) : c.decode bytes = .error { fault } := by
  have hparse : c.parse .event (EventMessage.parse maxDepth) bytes = .ok m :=
    parse_eq_ok_iff.mpr ⟨hsize, h⟩
  rw [decode, hparse]
  show m.toEvent.mapError _ = _
  rw [hfault]
  rfl

/-- A record among those of the event. -/
theorem decode_splice {e : Event} (h : e.Valid) (hpiece : RecordsSpell maxDepth piece [r])
    (hr : ¬ MessageType.event.Declares r) {i : Nat}
    (hsize : (splice (e.records RequiredField.all) i piece).length ≤ c.maxMessageSize)
    (hwire : (splice (e.records RequiredField.all) i piece).length ≤ maxLength) :
    c.decode (splice (e.records RequiredField.all) i piece)
      = .error
        { fault := if r.number ∉ eventFields then .unknownField .event r.number
            else if r.payload.wireType = 2 then .overfullEntry
            else .wireType .event r.number r.payload.wireType } := by
  have hfits : ∀ r' ∈ e.records RequiredField.all, r'.Fits maxDepth :=
    Event.fits_records (Nat.le_trans (length_encodeRecords_le_splice _ i piece) hwire)
  have hfold := EventMessage.foldlM_records h.names_nodup h.value_valid
    (fun f _ => RequiredField.mem_all f) hfits
  rw [← List.take_append_drop i (e.records RequiredField.all)] at hfold
  obtain ⟨m, hm, hunknown⟩ := EventMessage.exists_foldlM_aside hfold rfl
    fun m => EventMessage.apply_of_not_declares m hr
  have hparse : EventMessage.parse maxDepth (splice (e.records RequiredField.all) i piece)
      = some m := by
    rw [EventMessage.parse, mergeMessage_of_readRecords (readRecords_splice hfits hpiece i)]
    exact hm
  exact decode_of_toEvent hsize hparse (EventMessage.toEvent_of_aside hunknown)

variable {e : Event} {front back : NameMap AttributeValue} {name : String} {v : AttributeValue}

/-- A record inside the entry of an attribute. -/
theorem decode_entry_splice (h : { e with attributes := front ++ (name, v) :: back }.Valid)
    (hpiece : RecordsSpell (maxDepth - 1) piece [r]) (hr : ¬ MessageType.entry.Declares r)
    {i : Nat} {body bytes : Bytes}
    (hbody : body = splice (entryFields name (encodeRecords [v.record])) i piece)
    (hbytes : bytes = e.encodeAround front body back)
    (hsize : bytes.length ≤ c.maxMessageSize) (hwire : bytes.length ≤ maxLength) :
    c.decode bytes = .error { fault := .overfullEntry } := by
  subst hbytes
  have hfits : ∀ r' ∈ e.recordsAround front ⟨5, .delimited body⟩ back, r'.Fits maxDepth :=
    Event.fits_recordsAround hwire
  have hlength : body.length ≤ maxLength :=
    (hfits _ (Event.mem_recordsAround_iff.mpr (Or.inl rfl))).payload_fits
  have hv : v.Valid := h.value_valid (name, v) (by simp)
  have hentry : EntryMessage.parse (maxDepth - 1) body
      = some { key := name, value := { value := some v }, unknown := [r] } := by
    rw [hbody] at hlength ⊢
    exact EntryMessage.parse_splice hv hpiece hr hlength
  -- the records of the other attributes are taken in, so the entry is all that is kept aside
  have hrest := Event.valid_without h
  have hfold := EventMessage.foldlM_records hrest.names_nodup hrest.value_valid
    (fun f _ => RequiredField.mem_all f)
    fun r' hr' => hfits r' (Event.mem_recordsAround_iff.mpr (Or.inr hr'))
  rw [Event.records_append] at hfold
  obtain ⟨m, hm, hunknown⟩ := EventMessage.exists_foldlM_aside hfold rfl
    fun m => EventMessage.apply_overfull m hentry (List.cons_ne_nil r [])
  exact decode_of_toEvent hsize (EventMessage.parse_encodeAround hwire hm)
    (EventMessage.toEvent_of_aside hunknown)

/-- A record inside the value of an attribute. -/
theorem decode_value_splice (h : { e with attributes := front ++ (name, v) :: back }.Valid)
    (hpiece : RecordsSpell (maxDepth - 2) piece [r]) (hr : ¬ MessageType.value.Declares r)
    {i : Nat} {body bytes : Bytes}
    (hbody : body = encodeRecords (entryFields name (splice [v.record] i piece)))
    (hbytes : bytes = e.encodeAround front body back)
    (hsize : bytes.length ≤ c.maxMessageSize) (hwire : bytes.length ≤ maxLength) :
    c.decode bytes = .error
      { fault := if r.number ∉ attributeFields then .unknownField (.attributeValue name) r.number
          else .wireType (.attributeValue name) r.number r.payload.wireType } := by
  subst hbytes
  have hfits : ∀ r' ∈ e.recordsAround front ⟨5, .delimited body⟩ back, r'.Fits maxDepth :=
    Event.fits_recordsAround hwire
  have hlength : body.length ≤ maxLength :=
    (hfits _ (Event.mem_recordsAround_iff.mpr (Or.inl rfl))).payload_fits
  have hv : v.Valid := h.value_valid (name, v) (by simp)
  have hentry : EntryMessage.parse (maxDepth - 1) body
      = some { key := name, value := { value := some v, unknown := [r] } } := by
    rw [hbody] at hlength ⊢
    have hvalue := Nat.le_trans (length_value_le name _) hlength
    exact EntryMessage.parse_entryFields (AttributeMessage.merge_splice hv hpiece hr hvalue) hlength
  have hfold : (e.recordsAround front ⟨5, .delimited body⟩ back).foldlM
      (EventMessage.apply maxDepth) {}
        = some (.ofEventAround e front name { value := some v, unknown := [r] } back) := by
    refine EventMessage.foldlM_recordsAround ?_ (Event.valid_without h).value_valid
      (fun m => EventMessage.apply_entry m hentry rfl) hfits
    simpa [NameMap.names] using h.names_nodup
  refine decode_of_toEvent hsize (EventMessage.parse_encodeAround hwire hfold)
    (EventMessage.toEvent_ofEventAround ?_ ?_ ?_)
  · intro f
    have hrequired := h.required_ne_empty f
    cases f <;> exact hrequired
  · intro entry hmem
    exact h.value_valid entry (List.mem_append_left _ hmem)
  · exact AttributeMessage.toValue_of_aside name v

/-! ### The class of a refusal -/

theorem detail_unknownField_attributeValue (name : String) (n : Nat) :
    (Fault.unknownField (.attributeValue name) n).detail
      = "attribute '" ++ name ++ "' carries unrecognised field " ++ toString n := by
  have hjoin : "'" ++ " carries unrecognised field " = "' carries unrecognised field " := by decide
  show "attribute '" ++ name ++ "'" ++ " carries unrecognised field " ++ toString n = _
  rw [← hjoin, ← String.append_assoc]

/-- Among the records of an event, a number that no field of an event has is a payload of a newer
schema, and any other one is malformed. -/
theorem rejection_of_splice {e : Event} (h : e.Valid) (hpiece : RecordsSpell maxDepth piece [r])
    {i : Nat} {bytes : Bytes} (hbytes : bytes = splice (e.records RequiredField.all) i piece)
    (hsize : bytes.length ≤ c.maxMessageSize) (hwire : bytes.length ≤ maxLength) :
    (8 < r.number → ∃ err, c.decode bytes = .error err ∧ err.rejection = .unknownDataVariant
      ∧ err.message = "CloudEvent carries unrecognised field " ++ toString r.number)
    ∧ (r.number ≤ 8 → r.payload.wireType ≠ 2 → ∃ err, c.decode bytes = .error err
      ∧ err.rejection = .malformedEnvelope) := by
  subst hbytes
  constructor
  · intro hnumber
    have hnew : r.number ∉ eventFields := by
      rw [mem_eventFields_iff]
      omega
    have hother : ¬ MessageType.event.Declares r := fun hdeclares =>
      absurd (MessageType.declares_event_iff.mp hdeclares).2.2 (Nat.not_le.mpr hnumber)
    have hrefused := decode_splice h hpiece hother hsize hwire
    rw [if_pos hnew] at hrefused
    exact ⟨_, hrefused, rfl, rfl⟩
  · intro hnumber htype
    have hknown : ¬ r.number ∉ eventFields :=
      not_not.mpr (mem_eventFields_iff.mpr ⟨number_pos_of_spell hpiece, hnumber⟩)
    have hother : ¬ MessageType.event.Declares r := fun hdeclares =>
      htype (MessageType.declares_event_iff.mp hdeclares).1
    have hrefused := decode_splice h hpiece hother hsize hwire
    rw [if_neg hknown, if_neg htype] at hrefused
    exact ⟨_, hrefused, rfl⟩

/-- In the value of an attribute, a number that no kind has is a newer kind of this attribute, and
any other one is malformed. -/
theorem rejection_of_value_splice
    (h : { e with attributes := front ++ (name, v) :: back }.Valid)
    (hpiece : RecordsSpell (maxDepth - 2) piece [r]) {i : Nat} {bytes : Bytes}
    (hbytes : bytes = e.encodeAround front
      (encodeRecords (entryFields name (splice [v.record] i piece))) back)
    (hsize : bytes.length ≤ c.maxMessageSize) (hwire : bytes.length ≤ maxLength) :
    (7 < r.number → ∃ err, c.decode bytes = .error err ∧ err.rejection = .unknownAttributeVariant
      ∧ err.message = "attribute '" ++ name ++ "' carries unrecognised field " ++ toString r.number)
    ∧ (r.number ≤ 7 → ¬ MessageType.value.Declares r → ∃ err, c.decode bytes = .error err
      ∧ err.rejection = .malformedEnvelope) := by
  constructor
  · intro hnumber
    have hnew : r.number ∉ attributeFields := by
      rw [mem_attributeFields_iff]
      omega
    have hother : ¬ MessageType.value.Declares r := fun hdeclares =>
      absurd (MessageType.number_le_of_declares_value hdeclares) (Nat.not_le.mpr hnumber)
    have hrefused := decode_value_splice h hpiece hother rfl hbytes hsize hwire
    rw [if_pos hnew] at hrefused
    exact ⟨_, hrefused, rfl, detail_unknownField_attributeValue name r.number⟩
  · intro hnumber hother
    have hknown : ¬ r.number ∉ attributeFields :=
      not_not.mpr (mem_attributeFields_iff.mpr ⟨number_pos_of_spell hpiece, hnumber⟩)
    have hrefused := decode_value_splice h hpiece hother rfl hbytes hsize hwire
    rw [if_neg hknown] at hrefused
    exact ⟨_, hrefused, rfl⟩

/-- **Inserted fields are refused, and their place decides how.** The bytes are what a deterministic
codec writes of a valid event, with one more record: among the records of the event, among the
fields of one of its entries, or beside the field of a value, with the lengths around it written
anew. They are within the limit of the codec, and below 2 GiB, where the wire format itself ends.

At the first of these places a number that no field of an event has is a payload of a newer schema,
and in a value a number that no kind has is a newer kind; the message tells the number, and the
attribute. All else is a malformed envelope. -/
theorem decode_inserted (hc : c.deterministic = true) {e : Event} (h : e.Valid) {written : Bytes}
    (hwritten : c.encode e = .ok written) :
    ∃ entries, e.InWritingOrder entries
      ∧ written = encodeRecords ({ e with attributes := entries }.records RequiredField.all)
      ∧ ∀ (r : Record) (piece bytes : Bytes),
        bytes.length ≤ c.maxMessageSize → bytes.length ≤ maxLength →
        (∀ i, RecordsSpell maxDepth piece [r] →
          bytes = splice ({ e with attributes := entries }.records RequiredField.all) i piece →
          (8 < r.number → ∃ err, c.decode bytes = .error err
            ∧ err.rejection = .unknownDataVariant
            ∧ err.message = "CloudEvent carries unrecognised field " ++ toString r.number)
          ∧ (r.number ≤ 8 → r.payload.wireType ≠ 2 → ∃ err, c.decode bytes = .error err
            ∧ err.rejection = .malformedEnvelope))
        ∧ ∀ front name v back, entries = front ++ (name, v) :: back →
          written = e.encodeAround front
            (encodeRecords (entryFields name (encodeRecords [v.record]))) back
          ∧ ∀ i,
            (RecordsSpell (maxDepth - 1) piece [r] →
              ¬ (r.payload.wireType = 2 ∧ (r.number = 1 ∨ r.number = 2)) →
              bytes = e.encodeAround front
                (splice (entryFields name (encodeRecords [v.record])) i piece) back →
              ∃ err, c.decode bytes = .error err ∧ err.rejection = .malformedEnvelope)
            ∧ (RecordsSpell (maxDepth - 2) piece [r] →
              bytes = e.encodeAround front
                (encodeRecords (entryFields name (splice [v.record] i piece))) back →
              (7 < r.number → ∃ err, c.decode bytes = .error err
                ∧ err.rejection = .unknownAttributeVariant
                ∧ err.message
                  = "attribute '" ++ name ++ "' carries unrecognised field " ++ toString r.number)
              ∧ (r.number ≤ 7 → ¬ MessageType.value.Declares r →
                ∃ err, c.decode bytes = .error err ∧ err.rejection = .malformedEnvelope)) := by
  obtain ⟨-, rfl⟩ := (encode_eq_ok_iff hc h).mp hwritten
  have hsorted := Event.valid_sorted h
  have hrecords : e.canonicalEncoding = encodeRecords (e.sorted.records RequiredField.all) := by
    rw [Event.canonicalEncoding_eq_encode h,
      EventMessage.encode_eq_records hsorted.required_ne_empty]
  refine ⟨e.sorted.attributes, e.inWritingOrder_sorted h.names_nodup, hrecords, ?_⟩
  intro r piece bytes hsize hwire
  refine ⟨fun i hpiece hbytes => rejection_of_splice hsorted hpiece hbytes hsize hwire,
    fun front name v back hentries => ?_⟩
  have hwith : e.sorted = { e with attributes := front ++ (name, v) :: back } := hentries ▸ rfl
  have hvalid : { e with attributes := front ++ (name, v) :: back }.Valid := hwith ▸ hsorted
  refine ⟨?_, fun i => ⟨fun hpiece hr hbytes => ?_, fun hpiece hbytes =>
    rejection_of_value_splice hvalid hpiece hbytes hsize hwire⟩⟩
  · rw [hrecords, hwith, ← e.recordsAround_attributeRecord front back (name, v)]
    rfl
  · have hother : ¬ MessageType.entry.Declares r := mt MessageType.declares_entry_iff.mp hr
    exact ⟨_, decode_entry_splice hvalid hpiece hother rfl hbytes hsize hwire, rfl⟩

/-- An empty group between two texts of an event, a varint between the name and the value of an
entry, and four bytes behind the truth value of an attribute. -/
theorem decode_inserted_everywhere :
    let c : Codec := {}
    let refused (bytes : Bytes) (rejection : Rejection) (message : String) : Prop :=
      ∃ err, c.decode bytes = .error err ∧ err.rejection = rejection ∧ err.message = message
    refused
        [0x0A, 0x01, 0x31, 0x12, 0x01, 0x73, 0x4B, 0x4C, 0x1A, 0x03, 0x31, 0x2E, 0x30,
          0x22, 0x01, 0x74, 0x2A, 0x07, 0x0A, 0x01, 0x61, 0x12, 0x02, 0x08, 0x01]
        .unknownDataVariant "CloudEvent carries unrecognised field 9"
    ∧ (∃ err, c.decode
        [0x0A, 0x01, 0x31, 0x12, 0x01, 0x73, 0x1A, 0x03, 0x31, 0x2E, 0x30, 0x22, 0x01, 0x74,
          0x2A, 0x09, 0x0A, 0x01, 0x61, 0x08, 0x01, 0x12, 0x02, 0x08, 0x01] = .error err
      ∧ err.rejection = .malformedEnvelope)
    ∧ refused
        [0x0A, 0x01, 0x31, 0x12, 0x01, 0x73, 0x1A, 0x03, 0x31, 0x2E, 0x30, 0x22, 0x01, 0x74,
          0x2A, 0x0C, 0x0A, 0x01, 0x61, 0x12, 0x07, 0x08, 0x01, 0x45, 0x00, 0x00, 0x00, 0x00]
        .unknownAttributeVariant "attribute 'a' carries unrecognised field 8" := by
  intro c refused
  let e : Event :=
    { id := "1", source := "s", specVersion := "1.0", type := "t"
      attributes := [("a", .boolean true)] }
  have hvalid : e.Valid := by decide +kernel
  have horder : e.InWritingOrder e.attributes := by decide +kernel
  have hwritten : c.encode e = .ok (Layout.event e) :=
    encode_eq_ok_of_inWritingOrder rfl hvalid horder (by decide +kernel)
  obtain ⟨entries, hentries, -, hall⟩ := decode_inserted (c := c) rfl hvalid hwritten
  obtain rfl : entries = [("a", .boolean true)] := List.perm_singleton.mp hentries.perm
  have hspells {depth : Nat} {r : Record} {piece : Bytes} (hr : r.Fits depth)
      (hpiece : encodeRecords [r] = piece) : RecordsSpell depth piece [r] :=
    hpiece ▸ recordsSpell_encodeRecords (List.forall_mem_singleton.mpr hr)
  have hgroup : RecordsSpell maxDepth [0x4B, 0x4C] [⟨9, .group⟩] :=
    hspells ⟨by decide, by decide, (by decide : 0 < maxDepth)⟩ (by decide +kernel)
  have hvarint : RecordsSpell (maxDepth - 1) [0x08, 0x01] [⟨1, .varint 1⟩] :=
    hspells ⟨by decide, by decide, (by decide : 1 < UInt64.size)⟩ (by decide +kernel)
  have hfixed : RecordsSpell (maxDepth - 2) [0x45, 0, 0, 0, 0] [⟨8, .fixed32 [0, 0, 0, 0]⟩] :=
    hspells ⟨by decide, by decide, rfl⟩ (by decide +kernel)
  refine ⟨?_, ?_, ?_⟩
  · exact ((hall ⟨9, .group⟩ [0x4B, 0x4C] _ (by decide) (by decide)).1 2 hgroup
      (by decide +kernel)).1 (by decide)
  · exact (((hall ⟨1, .varint 1⟩ [0x08, 0x01] _ (by decide) (by decide)).2
      [] "a" (.boolean true) [] rfl).2 1).1 hvarint (by decide) (by decide +kernel)
  · exact ((((hall ⟨8, .fixed32 [0, 0, 0, 0]⟩ [0x45, 0, 0, 0, 0] _ (by decide) (by decide)).2
      [] "a" (.boolean true) [] rfl).2 1).2 hfixed (by decide +kernel)).1 (by decide)

end Codec

end CloudEvents
