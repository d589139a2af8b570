import CloudEvents.Proofs.SoundValues

/-!
# What a caller can obtain

Events come into being in many ways: from fields, from loose arguments, from another event and one
new part, from bytes, from a parsed message, out of a batch. What one call returns may be offered to
the next, alone or inside a container, and nothing restricts what else is offered. A history is any
finite course of such calls, and `Obtained` is what histories end in.

The invariant is `Candidate.Sound`. A call keeps it (`Call.sound_of_run`), because whatever a call
returns was checked when it was built or was sound before; so every history keeps it, and the rules
of an event hold of every event that is ever obtained.

## Main definitions

* `Call`, `Call.arguments`, `Call.run` — the calls that return values
* `Candidate.Obtained` — the end of a history

## Main results

* `Call.sound_of_run` — one step
* `Candidate.Obtained.sound` — all steps
* `Candidate.Obtained.event_invariant` — what holds of every event
-/

namespace CloudEvents

/-- A call that returns a value, with whatever is offered to it. -/
inductive Call where
  /-- A model called with named fields. -/
  | make (model : Model) (fields : Entries)
  | timestampOfText (text : Candidate)
  | timestampOfDateTime (dateTime : Candidate)
  /-- A timestamp from the two numbers of a message. -/
  | timestampOfFields (seconds nanos : Int)
  | attributeValue (kind : AttributeKind) (value : Candidate)
  | eventData (kind : DataKind) (arguments : List Candidate)
  | create (arguments : EventArguments)
  | withAttribute (event name value : Candidate)
  | withoutAttribute (event name : Candidate)
  | withData (event data : Candidate)
  | getAttribute (event name : Candidate)
  | batchOf (events : List Candidate)
  | element (container : Candidate) (index : Int)
  | dump (target : Candidate)
  | decode (codec : Codec) (data : Candidate)
  | decodeBatch (codec : Codec) (data : Candidate)
  /-- The event of any parsed message. Its attributes are a map, whatever made the message. -/
  | interpret (message : EventMessage) (isMap : message.attributes.names.Nodup)

namespace Call

/-- What is offered to a call. -/
def arguments : Call → List Candidate
  | make _ fields => [.dict fields]
  | timestampOfText c | timestampOfDateTime c | attributeValue _ c | element c _ | dump c
  | decode _ c | decodeBatch _ c => [c]
  | eventData _ arguments | batchOf arguments => arguments
  | create arguments => arguments.given
  | withAttribute event name value => [event, name, value]
  | withoutAttribute event c | withData event c | getAttribute event c => [event, c]
  | timestampOfFields _ _ | interpret _ _ => []

/-- What a call returns. -/
def run : Call → Except Error Candidate
  | make model fields => model.make fields
  | timestampOfText c => (Timestamp.ofCandidate c).map .timestamp
  | timestampOfDateTime c => do
    return .timestamp (← (← c.asDateTime).toTimestamp.mapError .invalid)
  | timestampOfFields seconds nanos => (Timestamp.ofFields seconds nanos).map .timestamp
  | attributeValue kind c => (AttributeValue.create kind c).map .attributeValue
  | eventData kind arguments => (EventData.create kind arguments).map .eventData
  | create arguments => (Event.create arguments).map .event
  | withAttribute event name value => (event.withAttribute name value).map .event
  | withoutAttribute event name => (event.withoutAttribute name).map .event
  | withData event data => (event.withData data).map .event
  | getAttribute event name => (event.getAttribute name).map .attributeValue
  | batchOf events => (Batch.ofCandidates events).map .batch
  | element container index => container.element index
  | dump target => target.dump
  | decode codec data => (codec.decodeCandidate data).result.map .event
  | decodeBatch codec data => (codec.decodeBatchCandidate data).result.map .batch
  | interpret message _ => (message.toEvent.mapError fun fault => .decode { fault }).map .event

/-! ### One step -/

theorem sound_of_make {model : Model} {fields : Entries} (h : (Candidate.dict fields).Sound)
    {result : Candidate} (hmake : model.make fields = .ok result) : result.Sound := by
  unfold Model.make at hmake
  split at hmake
  all_goals
    obtain ⟨built, hbuild, rfl⟩ :=
      Built.map_eq_value_iff.mp (Built.toExcept_eq_ok_iff.mp hmake)
  · exact .timestamp (Timestamp.valid_of_build hbuild)
  · exact .attributeValue (AttributeValue.valid_of_build hbuild)
  · exact .structuredData built
  · exact .eventData built
  · exact .event (Event.valid_of_build h hbuild)
  · exact .batch (Batch.valid_of_build h hbuild)

theorem eq_event_of_asEvent {c : Candidate} {e : Event} (h : c.asEvent = .ok e) : c = .event e := by
  cases c <;> cases h
  rfl

/-- The event on which a call is made. -/
theorem valid_of_asEvent {c : Candidate} (hc : c.Sound) {e : Event} (h : c.asEvent = .ok e) :
    e.Valid :=
  Candidate.valid_of_sound_event (eq_event_of_asEvent h ▸ hc)

theorem valid_of_withAttribute {event name value : Candidate} (hevent : event.Sound)
    (hname : name.Sound) (hvalue : value.Sound) {e : Event}
    (h : event.withAttribute name value = .ok e) : e.Valid := by
  obtain ⟨held, hheld, hnext⟩ := bind_eq_ok_iff.mp h
  obtain ⟨-, -, hoffer⟩ := bind_eq_ok_iff.mp hnext
  exact Event.valid_of_offerAttribute (valid_of_asEvent hevent hheld) hname hvalue hoffer

theorem valid_of_withoutAttribute {event name : Candidate} (hevent : event.Sound) {e : Event}
    (h : event.withoutAttribute name = .ok e) : e.Valid := by
  obtain ⟨held, hheld, hnext⟩ := bind_eq_ok_iff.mp h
  have hvalid := valid_of_asEvent hevent hheld
  split at hnext
  · exact Event.valid_of_withoutAttribute hvalid hnext
  · obtain ⟨-, rfl⟩ := Event.check_eq_ok_iff.mp (mapError_eq_ok_iff.mp hnext)
    exact hvalid

theorem valid_of_withData {event data : Candidate} (hevent : event.Sound) (hdata : data.Sound)
    {e : Event} (h : event.withData data = .ok e) : e.Valid := by
  obtain ⟨held, hheld, hoffer⟩ := bind_eq_ok_iff.mp h
  exact Event.valid_of_offerField (valid_of_asEvent hevent hheld) hdata hoffer

theorem valid_of_getAttribute {event name : Candidate} (hevent : event.Sound) {v : AttributeValue}
    (h : event.getAttribute name = .ok v) : v.Valid := by
  obtain ⟨held, hheld, hnext⟩ := bind_eq_ok_iff.mp h
  obtain ⟨-, -, hget⟩ := bind_eq_ok_iff.mp hnext
  have hvalid := valid_of_asEvent hevent hheld
  split at hget
  · rw [Event.getAttribute] at hget
    split at hget
    · rename_i hlookup
      cases hget
      have hmem := (NameMap.lookup_eq_some_iff_mem hvalid.names_nodup).mp hlookup
      exact hvalid.value_valid _ hmem
    · cases hget
  · cases hget

theorem mem_of_elementAt? {α : Type} {elements : List α} {index : Int} {a : α}
    (h : elementAt? elements index = some a) : a ∈ elements := by
  rw [elementAt?] at h
  simp only [Option.ite_none_left_eq_some] at h
  exact List.mem_of_getElem? h.2

/-- The element at an index is one of those that are traversed, or a value of a dictionary. -/
theorem mem_of_element {container : Candidate} {index : Int} {c : Candidate}
    (h : container.element index = .ok c) :
    (∃ items, container.items? = some items ∧ c ∈ items)
      ∨ ∃ entries, container = .dict entries ∧ ∃ entry ∈ entries, entry.2 = c := by
  unfold Candidate.element at h
  simp only at h
  split at h
  case h_1 b =>
    obtain ⟨e, he, rfl⟩ := map_eq_ok_iff.mp h
    rw [Batch.get] at he
    split at he
    · rename_i hfound
      cases he
      exact Or.inl ⟨_, rfl, List.mem_map_of_mem (mem_of_elementAt? hfound)⟩
    · cases he
  case h_2 entries =>
    split at h
    · rename_i entry hfound
      exact Or.inr ⟨entries, rfl, entry, List.mem_of_find?_eq_some hfound, Except.ok.inj h⟩
    · cases h
  case h_10 => cases h
  all_goals
    split at h
    · rename_i hfound
      cases h
      obtain ⟨items, hitems, hat⟩ := Option.bind_eq_some_iff.mp hfound
      exact Or.inl ⟨items, hitems, mem_of_elementAt? hat⟩
    · cases h

theorem sound_of_element {container : Candidate} (h : container.Sound) {index : Int}
    {c : Candidate} (hc : container.element index = .ok c) : c.Sound := by
  obtain ⟨items, hitems, hmem⟩ | ⟨entries, rfl, entry, hentry, rfl⟩ := mem_of_element hc
  · exact Candidate.sound_of_items? h hitems c hmem
  · exact (Candidate.sound_of_mem_dict h entry hentry).2

theorem sound_of_dump {target c : Candidate} (h : target.dump = .ok c) : c.Sound := by
  rw [Candidate.dump] at h
  cases hd : target.dump? with
  | none =>
    rw [hd] at h
    cases h
  | some d =>
    rw [hd] at h
    exact Except.ok.inj h ▸ Candidate.sound_of_dump? hd

theorem valid_of_decodeCandidate {codec : Codec} {data : Candidate} {e : Event}
    (h : (codec.decodeCandidate data).result = .ok e) : e.Valid := by
  unfold Codec.decodeCandidate at h
  split at h
  case h_3 => cases h
  all_goals
    exact Codec.valid_of_decode (Codec.result_decodeLogged codec _ ▸ mapError_eq_ok_iff.mp h)

theorem valid_of_decodeBatchCandidate {codec : Codec} {data : Candidate} {b : Batch}
    (h : (codec.decodeBatchCandidate data).result = .ok b) : ∀ e ∈ b.events, e.Valid := by
  unfold Codec.decodeBatchCandidate at h
  split at h
  case h_3 => cases h
  all_goals
    exact Codec.valid_of_decodeBatch
      (Codec.result_decodeBatchLogged codec _ ▸ mapError_eq_ok_iff.mp h)

/-- **One step keeps the invariant**: what a call returns is sound if what it was offered is. -/
theorem sound_of_run {call : Call} (h : ∀ c ∈ call.arguments, c.Sound) {result : Candidate}
    (hrun : call.run = .ok result) : result.Sound := by
  cases call with
  | make model fields =>
    have hmake : model.make fields = .ok result := hrun
    exact sound_of_make (h (.dict fields) List.mem_cons_self) hmake
  | timestampOfText c =>
    obtain ⟨t, ht, rfl⟩ := map_eq_ok_iff.mp hrun
    unfold Timestamp.ofCandidate at ht
    split at ht
    · exact .timestamp (Timestamp.valid_of_ofRfc3339 ht)
    · cases ht
  | timestampOfDateTime c =>
    obtain ⟨d, -, hnext⟩ := bind_eq_ok_iff.mp hrun
    obtain ⟨t, ht, hresult⟩ := bind_eq_ok_iff.mp hnext
    obtain rfl := pure_eq_ok_iff.mp hresult
    exact .timestamp (DateTime.valid_of_toTimestamp (mapError_eq_ok_iff.mp ht))
  | timestampOfFields seconds nanos =>
    rw [run] at hrun
    obtain ⟨t, ht, rfl⟩ := map_eq_ok_iff.mp hrun
    exact .timestamp (Timestamp.valid_of_ofFields ht)
  | attributeValue kind c =>
    obtain ⟨v, hv, rfl⟩ := map_eq_ok_iff.mp hrun
    exact .attributeValue (AttributeValue.valid_of_create hv)
  | eventData kind offered =>
    obtain ⟨d, -, rfl⟩ := map_eq_ok_iff.mp hrun
    exact .eventData d
  | create offered =>
    obtain ⟨e, he, rfl⟩ := map_eq_ok_iff.mp hrun
    exact .event (Event.valid_of_create h he)
  | withAttribute event name value =>
    obtain ⟨e, he, rfl⟩ := map_eq_ok_iff.mp hrun
    obtain ⟨hevent, hrest⟩ := List.forall_mem_cons.mp h
    obtain ⟨hname, hlast⟩ := List.forall_mem_cons.mp hrest
    exact .event (valid_of_withAttribute hevent hname (hlast value List.mem_cons_self) he)
  | withoutAttribute event name =>
    obtain ⟨e, he, rfl⟩ := map_eq_ok_iff.mp hrun
    exact .event (valid_of_withoutAttribute (h event List.mem_cons_self) he)
  | withData event data =>
    obtain ⟨e, he, rfl⟩ := map_eq_ok_iff.mp hrun
    have hdata := h data (List.mem_cons_of_mem event List.mem_cons_self)
    exact .event (valid_of_withData (h event List.mem_cons_self) hdata he)
  | getAttribute event name =>
    obtain ⟨v, hv, rfl⟩ := map_eq_ok_iff.mp hrun
    exact .attributeValue (valid_of_getAttribute (h event List.mem_cons_self) hv)
  | batchOf events =>
    obtain ⟨b, hb, rfl⟩ := map_eq_ok_iff.mp hrun
    refine .batch (Batch.valid_of_build (Candidate.sound_ofFields ?_)
      (Built.toExcept_eq_ok_iff.mp hb))
    exact List.forall_mem_singleton.mpr (.tuple h)
  | element container index => exact sound_of_element (h container List.mem_cons_self) hrun
  | dump target => exact sound_of_dump hrun
  | decode codec data =>
    obtain ⟨e, he, rfl⟩ := map_eq_ok_iff.mp hrun
    exact .event (valid_of_decodeCandidate he)
  | decodeBatch codec data =>
    obtain ⟨b, hb, rfl⟩ := map_eq_ok_iff.mp hrun
    exact .batch (valid_of_decodeBatchCandidate hb)
  | interpret message isMap =>
    obtain ⟨e, he, rfl⟩ := map_eq_ok_iff.mp hrun
    exact .event ((EventMessage.toEvent_eq_ok_iff_valid isMap).mp (mapError_eq_ok_iff.mp he)).2

end Call

/-! ### All steps -/

namespace Candidate

/-- What a caller can obtain: anything that is not built by this library, containers of what was
obtained, the result of a call that was offered nothing else, and the parts of a result. -/
inductive Obtained : Candidate → Prop
  | plain {c : Candidate} (h : c.isPlain) : Obtained c
  | list {elements : List Candidate} (h : ∀ c ∈ elements, Obtained c) : Obtained (list elements)
  | tuple {elements : List Candidate} (h : ∀ c ∈ elements, Obtained c) : Obtained (tuple elements)
  | dict {entries : Entries} (hkeys : ∀ entry ∈ entries, Obtained entry.1)
      (hvalues : ∀ entry ∈ entries, Obtained entry.2) : Obtained (dict entries)
  | result {call : Call} {c : Candidate} (harguments : ∀ a ∈ call.arguments, Obtained a)
      (hrun : call.run = .ok c) : Obtained c
  | item {c item : Candidate} {items : List Candidate} (hc : Obtained c)
      (hitems : c.items? = some items) (hitem : item ∈ items) : Obtained item
  | field {c : Candidate} {fields : List (String × Candidate)} {field : String × Candidate}
      (hc : Obtained c) (hfields : c.fields? = some fields) (hfield : field ∈ fields) :
      Obtained field.2

theorem Obtained.ofFields {fields : List (String × Candidate)}
    (h : ∀ field ∈ fields, field.2.Obtained) : (Candidate.ofFields fields).Obtained := by
  refine .dict (fun entry hm => ?_) fun entry hm => ?_ <;>
    obtain ⟨field, hfield, rfl⟩ := List.mem_map.mp hm
  · exact .plain rfl
  · exact h field hfield

theorem Obtained.sound {c : Candidate} (h : c.Obtained) : c.Sound := by
  induction h with
  | plain hp => exact .plain hp
  | list _ ih => exact .list ih
  | tuple _ ih => exact .tuple ih
  | dict _ _ ihkeys ihvalues => exact .dict ihkeys ihvalues
  | result _ hrun ih => exact Call.sound_of_run ih hrun
  | item _ hitems hitem ih => exact sound_of_items? ih hitems _ hitem
  | field _ hfields hfield ih => exact sound_of_fields? ih hfields _ hfield

end Candidate

/-! ### Events -/

theorem AttributeValue.typeName_content (v : AttributeValue) :
    v.content.typeName = v.kind.requiredType := by
  cases v <;> rfl

theorem EventData.typeName_content (d : EventData) :
    d.content.typeName = d.kind.requiredType := by
  cases d <;> rfl

/-- The names of the required attributes are never found among the others. -/
theorem Event.getAttribute_attributeName {e : Event} (h : e.Valid) (f : RequiredField) :
    e.getAttribute f.attributeName = .error (.notSet f.attributeName) := by
  have hreserved : f.attributeName ∈ reservedNames :=
    List.mem_map_of_mem (RequiredField.mem_all f)
  have hnone : e.attributes.lookup f.attributeName = none :=
    NameMap.lookup_eq_none_of_not_mem fun hm => h.name_not_reserved _ hm hreserved
  rw [getAttribute, hnone]

/-- **The invariant of events.** Whatever history an event has, its required attributes are not
empty; its attributes have distinct names that are neither empty nor reserved, and values of the
types that their kinds require, with integers of 32 bits and timestamps of years 1 to 9999; and its
payload, if there is one, has a value of the type that its kind requires. -/
theorem Candidate.Obtained.event_invariant {e : Event} (h : (Candidate.event e).Obtained) :
    (∀ f, e.required f ≠ "")
    ∧ e.attributes.names.Nodup
    ∧ (∀ name ∈ e.attributes.names, name ≠ "" ∧ name ∉ ["id", "source", "specversion", "type"])
    ∧ (∀ name ∈ ["id", "source", "specversion", "type"],
        e.getAttribute name = .error (.notSet name))
    ∧ (∀ entry ∈ e.attributes, entry.2.content.typeName = entry.2.kind.requiredType)
    ∧ (∀ name i, (name, .integer i) ∈ e.attributes → -2147483648 ≤ i ∧ i ≤ 2147483647)
    ∧ (∀ name t, (name, .timestamp t) ∈ e.attributes →
        -62135596800 ≤ t.seconds ∧ t.seconds ≤ 253402300799 ∧ 0 ≤ t.nanos ∧ t.nanos ≤ 999999999)
    ∧ ∀ d, e.data = some d → d.content.typeName = d.kind.requiredType := by
  have hvalid : e.Valid := Candidate.valid_of_sound_event h.sound
  refine ⟨hvalid.required_ne_empty, hvalid.names_nodup, fun name hm => ?_, fun name hm => ?_,
    fun entry hm => entry.2.typeName_content, fun name i hm => hvalid.value_valid _ hm,
    fun name t hm => ?_, fun d hd => d.typeName_content⟩
  · exact ⟨hvalid.name_ne_empty name hm, hvalid.name_not_reserved name hm⟩
  · obtain ⟨f, -, rfl⟩ := List.mem_map.mp (show name ∈ reservedNames from hm)
    exact Event.getAttribute_attributeName hvalid f
  · have ht : t.Valid := hvalid.value_valid _ hm
    exact ⟨ht.minSeconds_le, ht.le_maxSeconds, ht.nanos_nonneg, Int.le_of_lt_add_one ht.nanos_lt⟩

/-- The fields of a value of a kind, which is not built. -/
def Candidate.unbuilt (kind : String) (value : Candidate) : Candidate :=
  .ofFields [("kind", .text kind), ("value", value)]

/-- The fields of an event in which nothing is built, neither its attribute nor its payload. -/
def Event.unbuiltFields : List (String × Candidate) :=
  [("id", .text "1"), ("source", .text "/"), ("spec_version", .text "1.0"), ("type", .text "t"),
   ("attributes", .ofFields [("count", .unbuilt "integer" (.int 7))]),
   ("data", .unbuilt "text" (.text ""))]

/-- An event that is built from dictionaries all at once, and is then given another attribute, as a
dictionary again. -/
theorem Candidate.Obtained.event_invariant_unbuiltFields :
    let e : Event :=
      { id := "1", source := "/", specVersion := "1.0", type := "t"
        attributes := [("count", .integer 7), ("flag", .boolean true)], data := some (.text "") }
    (Candidate.event e).Obtained ∧ e.getAttribute "specversion" = .error (.notSet "specversion")
      ∧ ∀ name i, (name, .integer i) ∈ e.attributes → -2147483648 ≤ i ∧ i ≤ 2147483647 := by
  intro e
  have hunbuilt {kind : String} {value : Candidate} (hvalue : value.isPlain) :
      (Candidate.unbuilt kind value).Obtained :=
    .ofFields (forall_mem_pair (.plain rfl) (.plain hvalue))
  have hfields : (Candidate.ofFields Event.unbuiltFields).Obtained := by
    refine .ofFields ?_
    simp only [Event.unbuiltFields, List.forall_mem_cons, List.not_mem_nil, false_implies,
      implies_true, and_true]
    refine ⟨.plain rfl, .plain rfl, .plain rfl, .plain rfl, .ofFields ?_, hunbuilt rfl⟩
    exact List.forall_mem_singleton.mpr (hunbuilt rfl)
  have hmake : (Call.make .event (.ofFields Event.unbuiltFields)).run
      = .ok (.event { e with attributes := [("count", .integer 7)] }) := by rfl
  have hwith : (Call.withAttribute (.event { e with attributes := [("count", .integer 7)] })
      (.text "flag") (.unbuilt "boolean" (.bool true))).run = .ok (.event e) := by rfl
  have hmade : (Candidate.event { e with attributes := [("count", .integer 7)] }).Obtained := by
    refine .result ?_ hmake
    exact List.forall_mem_singleton.mpr hfields
  have he : (Candidate.event e).Obtained := by
    refine .result ?_ hwith
    exact List.forall_mem_cons.mpr ⟨hmade, List.forall_mem_cons.mpr
      ⟨.plain rfl, List.forall_mem_singleton.mpr (hunbuilt rfl)⟩⟩
  obtain ⟨-, -, -, hget, -, hinteger, -⟩ := event_invariant he
  exact ⟨he, hget "specversion" (by decide), hinteger⟩

end CloudEvents
