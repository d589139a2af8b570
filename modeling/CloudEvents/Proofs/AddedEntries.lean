import CloudEvents.Proofs.DroppedFields
import CloudEvents.Proofs.FieldOrder

/-!
# One more entry

Bytes that decode to an event are cut at any place between two records, and the entry of an
attribute is put in. If no entry of the same name comes later, what is read is the event with that
attribute set, wherever the entry stands: behind all other records it would be the last one to write
its slot, and no record that it is exchanged with writes that slot.

Parsing knows no rules, so the same is true of a value that breaks one. The event that would come of
it is then not valid, and since all other values are, the fault is that of the new value.

## Main results

* `Reordered.entry_last` — an entry and the records behind it
* `EventMessage.toEvent_of_held`, `EventMessage.toEvent_of_invalid_value` — messages that hold, slot
  by slot, what an event holds
* `Codec.decode_added_entry` — what becomes of an entry that is put in
-/

namespace CloudEvents

/-! ### An entry behind all other records -/

theorem Reordered.append_left {segments segments' : List Segment} (front : List Segment)
    (h : Reordered segments segments') : Reordered (front ++ segments) (front ++ segments') where
  perm := h.perm.append_left front
  filter_eq slot := by rw [List.filter_append, List.filter_append, h.filter_eq slot]

/-- An entry may stand before records that write no entry of its name. -/
theorem Reordered.entry_last {front back : List Segment} {entry : Segment} {name : String}
    (hentry : entry.record.slot? maxDepth = some (.entry name))
    (hlast : ∀ s ∈ back, s.record.slot? maxDepth ≠ some (.entry name)) :
    Reordered (front ++ (back ++ [entry])) (front ++ entry :: back) := by
  refine .append_left front (.exchange ?_)
  intro s hs s' hs'
  rw [List.mem_singleton.mp hs', hentry]
  exact hlast s hs

namespace EventMessage

variable {m : EventMessage} {e : Event} {name : String} {v : AttributeValue}

/-- The message of an event, with an attribute written into it. -/
theorem ofEvent_insert (e : Event) (name : String) (v : AttributeValue) :
    ofEvent { e with attributes := e.attributes.insert name v }
      = { ofEvent e with
          attributes := (ofEvent e).attributes.insert name { value := some v } } := by
  have hmap := NameMap.map_insert (fun v => ({ value := some v } : AttributeMessage)) name v
    e.attributes
  simp only [ofEvent, hmap]

/-- What is read when an entry is put in before records that write no entry of its name. -/
theorem exists_parse_of_entry {front back : List Segment} {entry : Segment} {body : Bytes}
    (h : parse maxDepth (Segment.join (front ++ back)) = some (ofEvent e))
    (hrecord : entry.record = ⟨5, .delimited body⟩)
    (hbody : EntryMessage.parse (maxDepth - 1) body
      = some { key := name, value := { value := some v } })
    (hlast : ∀ s ∈ back, s.record.slot? maxDepth ≠ some (.entry name)) :
    ∃ m, parse maxDepth (Segment.join (front ++ entry :: back)) = some m ∧ m.unknown = []
      ∧ ∀ slot, m.held slot
        = (ofEvent { e with attributes := e.attributes.insert name v }).held slot := by
  have hslot : entry.record.slot? maxDepth = some (.entry name) := by
    rw [hrecord]
    exact congrArg (Option.map Slot.entry) (entryKey?_of_parse hbody)
  have hreordered : Reordered (front ++ (back ++ [entry])) (front ++ entry :: back) :=
    .entry_last hslot hlast
  rw [parse, mergeMessage_of_readRecords (Segment.readRecords_join _)] at h
  have hbehind : ((front ++ (back ++ [entry])).map Segment.record).foldlM (apply maxDepth) {}
      = some (ofEvent { e with attributes := e.attributes.insert name v }) := by
    rw [← List.append_assoc, List.map_append]
    refine foldlM_append_eq_some h ?_
    rw [List.map_singleton, hrecord, List.foldlM_cons, apply_entry _ hbody rfl, ofEvent_insert]
    rfl
  have hfilter (slot : Slot) :
      ((front ++ entry :: back).map Segment.record).filter (fun r => r.slot? maxDepth = some slot)
        = ((front ++ (back ++ [entry])).map Segment.record).filter
            (fun r => r.slot? maxDepth = some slot) := by
    rw [List.filter_map, List.filter_map]
    exact congrArg (List.map Segment.record) (hreordered.filter_eq slot)
  obtain ⟨m, hfold, hunknown, hheld⟩ :=
    exists_foldlM_of_reordered hbehind rfl (hreordered.perm.map _) hfilter
  refine ⟨m, ?_, hunknown, hheld⟩
  rw [parse, mergeMessage_of_readRecords (Segment.readRecords_join _), hfold]

/-! ### Its interpretation -/

/-- A message that holds what the message of a valid event holds is interpreted as that event. -/
theorem toEvent_of_held (hnodup : m.attributes.names.Nodup) (hunknown : m.unknown = [])
    (he : e.Valid) (hheld : ∀ slot, m.held slot = (ofEvent e).held slot) :
    ∃ e', m.toEvent = .ok e' ∧ e'.Same e := by
  have hperm : m.attributes.Perm (ofEvent e).attributes :=
    NameMap.perm_of_equiv hnodup (names_ofEvent e ▸ he.names_nodup) fun key => hheld (.entry key)
  obtain ⟨e', he', hvalid', hsame⟩ := exists_ofEvent_of_perm he hperm
  refine ⟨e', (toEvent_eq_ok_iff_valid hnodup).mpr ⟨?_, hvalid'⟩, hsame⟩
  rw [eq_ofEvent_of_held hunknown hheld, he']

/-- If just one value is not valid, the message is refused for the rules that this value breaks. -/
theorem toEvent_of_invalid_value (hnodup : m.attributes.names.Nodup) (hunknown : m.unknown = [])
    (he : e.Valid)
    (hheld : ∀ slot, m.held slot
      = (ofEvent { e with attributes := e.attributes.insert name v }).held slot)
    (hv : ¬ v.Valid) : m.toEvent = .error (.invalid v.violations) := by
  have hperm := NameMap.perm_of_equiv hnodup
    (names_ofEvent _ ▸ NameMap.nodup_insert he.names_nodup name v) fun key => hheld (.entry key)
  have hentries : ∀ entry ∈ m.attributes,
      ∃ w, entry.2 = { value := some w } ∧ (w = v ∨ w.Valid) := by
    intro entry hm
    obtain ⟨named, hnamed, rfl⟩ := List.mem_map.mp (hperm.mem_iff.mp hm)
    refine ⟨named.2, rfl, ?_⟩
    exact (NameMap.mem_insert hnamed).imp (congrArg Prod.snd) (he.value_valid named)
  have hnew : (name, { value := some v }) ∈ m.attributes := by
    rw [← NameMap.lookup_eq_some_iff_mem hnodup]
    refine (hheld (.entry name)).trans ?_
    rw [ofEvent_insert]
    exact (NameMap.lookup_insert ..).trans (if_pos rfl)
  have hmissing : m.missing = [] := by
    refine missing_eq_nil_iff.mpr fun f => ?_
    have hrequired : m.required f = e.required f := by
      refine (hheld (.required f)).trans ?_
      cases f <;> rfl
    rw [hrequired]
    exact he.required_ne_empty f
  rw [toEvent_eq, unknownFault_eq_none_iff.mpr hunknown]
  simp only [hmissing, if_true]
  cases hattributes : m.interpretAttributes with
  | ok attributes =>
    obtain ⟨hmap, hvalid⟩ := mapM_toValue_eq_ok_iff.mp hattributes
    rw [hmap] at hnew
    obtain ⟨named, hnamed, heq⟩ := List.mem_map.mp hnew
    cases heq
    exact absurd (hvalid named hnamed) hv
  | error fault =>
    obtain ⟨entry, hm, hfault⟩ := exists_mem_of_mapM_eq_error hattributes
    obtain ⟨w, hentry, hw⟩ := hentries entry hm
    have hcheck : (w.check.mapError Fault.invalid).map (fun value => (entry.1, value))
        = .error fault := by
      rw [← hfault, hentry]
      rfl
    rcases hw with rfl | hw
    · have hbroken : w.check = .error w.violations :=
        Violation.accept_eq_error_iff.mpr ⟨mt AttributeValue.violations_eq_nil_iff.mp hv, rfl⟩
      rw [hbroken] at hcheck
      cases hcheck
      rfl
    · rw [AttributeValue.check_eq_ok_iff.mpr ⟨hw, rfl⟩] at hcheck
      cases hcheck

end EventMessage

/-! ### Decoding -/

/-- **What becomes of an entry that is put in.** If no entry of its name comes later, its value is
that of the attribute, or the message is refused for the rules that the value breaks. -/
theorem Codec.decode_added_entry (c : Codec) {front back : List Segment} {entry : Segment}
    {e : Event} {name : String} {v : AttributeValue} {body : Bytes}
    (h : c.decode (Segment.join (front ++ back)) = .ok e) (hname : nameViolation name = none)
    (hrecord : entry.record = ⟨5, .delimited body⟩)
    (hbody : EntryMessage.parse (maxDepth - 1) body
      = some { key := name, value := { value := some v } })
    (hlast : ∀ s ∈ back, s.record.slot? maxDepth ≠ some (.entry name))
    (hsize : (Segment.join (front ++ entry :: back)).length ≤ c.maxMessageSize) :
    (v.Valid → ∃ e', c.decode (Segment.join (front ++ entry :: back)) = .ok e'
        ∧ e'.Same { e with attributes := e.attributes.insert name v })
      ∧ (¬ v.Valid → c.decode (Segment.join (front ++ entry :: back))
        = .error { fault := .invalid v.violations }) := by
  obtain ⟨-, hparse, he⟩ := decode_eq_ok_iff.mp h
  obtain ⟨m, hm, hunknown, hheld⟩ :=
    EventMessage.exists_parse_of_entry hparse hrecord hbody hlast
  have hnodup := EventMessage.names_nodup_of_parse hm
  have hdecode : c.decode (Segment.join (front ++ entry :: back))
      = m.toEvent.mapError fun fault => { fault } := by
    rw [decode, parse_eq_ok_iff.mpr ⟨hsize, hm⟩]
    rfl
  rw [hdecode]
  constructor
  · intro hv
    obtain ⟨e', he', hsame⟩ :=
      EventMessage.toEvent_of_held hnodup hunknown (Event.valid_insert he hname hv) hheld
    exact ⟨e', mapError_eq_ok_iff.mpr he', hsame⟩
  · intro hv
    rw [EventMessage.toEvent_of_invalid_value hnodup hunknown he hheld hv]
    rfl

end CloudEvents
