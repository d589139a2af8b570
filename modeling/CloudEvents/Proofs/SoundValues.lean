import CloudEvents.Candidate.Calls
import CloudEvents.Proofs.BatchDecoding

/-!
# Sound candidates

A candidate may hold values that this library built, at any depth. It is sound when every one of
them keeps its rules. Soundness is what makes the readers of `CloudEvents.Construction` reliable:
they build what they can check, and they take over what was built before, so what they return keeps
its rules as long as the candidates they are offered are sound.

There is one lemma for each reader and each container, and none of them is about a particular
field. The rules of one model are used in one place, where that model is built.

## Main definitions

* `Candidate.Sound`

## Main results

* `Candidate.sound_of_fields?`, `Candidate.sound_of_items?`, `Candidate.sound_of_dump?` — what a
  sound candidate is taken apart into is sound
* `Event.valid_of_build`, `Event.valid_of_create`, `Batch.valid_of_build` — what is built of sound
  candidates keeps its rules
-/

namespace CloudEvents

theorem forall_mem_pair {α : Type} {P : α → Prop} {a b : α} (ha : P a) (hb : P b) :
    ∀ c ∈ [a, b], P c :=
  List.forall_mem_cons.mpr ⟨ha, List.forall_mem_singleton.mpr hb⟩

namespace Candidate

/-- Candidates without parts that could have been built by this library. -/
def isPlain : Candidate → Bool
  | null | bool _ | int _ | float _ | text _ | attributeKind _ | dataKind _ | bytes _
  | byteArray _ | dateTime _ => true
  | _ => false

/-- Every value inside the candidate that was built keeps its rules. -/
inductive Sound : Candidate → Prop
  | plain {c : Candidate} (h : c.isPlain) : Sound c
  | list {elements : List Candidate} (h : ∀ c ∈ elements, Sound c) : Sound (list elements)
  | tuple {elements : List Candidate} (h : ∀ c ∈ elements, Sound c) : Sound (tuple elements)
  | dict {entries : Entries} (hkeys : ∀ entry ∈ entries, Sound entry.1)
      (hvalues : ∀ entry ∈ entries, Sound entry.2) : Sound (dict entries)
  | timestamp {t : Timestamp} (h : t.Valid) : Sound (timestamp t)
  | attributeValue {v : AttributeValue} (h : v.Valid) : Sound (attributeValue v)
  | structuredData (s : StructuredData) : Sound (structuredData s)
  | eventData (d : EventData) : Sound (eventData d)
  | event {e : Event} (h : e.Valid) : Sound (event e)
  | batch {b : Batch} (h : ∀ e ∈ b.events, e.Valid) : Sound (batch b)

/-! ### What sound candidates hold -/

theorem sound_of_mem_list {elements : List Candidate} (h : (list elements).Sound) :
    ∀ c ∈ elements, c.Sound := by
  cases h with
  | plain hp => cases hp
  | list h => exact h

theorem sound_of_mem_tuple {elements : List Candidate} (h : (tuple elements).Sound) :
    ∀ c ∈ elements, c.Sound := by
  cases h with
  | plain hp => cases hp
  | tuple h => exact h

theorem sound_of_mem_dict {entries : Entries} (h : (dict entries).Sound) :
    ∀ entry ∈ entries, entry.1.Sound ∧ entry.2.Sound := by
  cases h with
  | plain hp => cases hp
  | dict hkeys hvalues => exact fun entry hm => ⟨hkeys entry hm, hvalues entry hm⟩

theorem valid_of_sound_attributeValue {v : AttributeValue} (h : (attributeValue v).Sound) :
    v.Valid := by
  cases h with
  | plain hp => cases hp
  | attributeValue h => exact h

theorem valid_of_sound_event {e : Event} (h : (event e).Sound) : e.Valid := by
  cases h with
  | plain hp => cases hp
  | event h => exact h

theorem valid_of_sound_batch {b : Batch} (h : (batch b).Sound) : ∀ e ∈ b.events, e.Valid := by
  cases h with
  | plain hp => cases hp
  | batch h => exact h

/-! ### Dictionaries -/

theorem sound_dict {entries : Entries}
    (h : ∀ entry ∈ entries, entry.1.Sound ∧ entry.2.Sound) : (dict entries).Sound :=
  .dict (fun entry hm => (h entry hm).1) fun entry hm => (h entry hm).2

theorem sound_dict_nil : (dict []).Sound := sound_dict (List.forall_mem_nil _)

/-- Names are plain, so a dictionary of fields is as sound as what they hold. -/
theorem sound_ofFields {fields : List (String × Candidate)} (h : ∀ field ∈ fields, field.2.Sound) :
    (ofFields fields).Sound := by
  refine sound_dict fun entry hm => ?_
  obtain ⟨field, hfield, rfl⟩ := List.mem_map.mp hm
  exact ⟨.plain rfl, h field hfield⟩

theorem sound_of_lookup {fields : Entries} (h : (dict fields).Sound) {name : String}
    {c : Candidate} (hc : fields.lookup name = some c) : c.Sound := by
  obtain ⟨entry, hentry, rfl⟩ := Option.map_eq_some_iff.mp hc
  exact (sound_of_mem_dict h entry (List.mem_of_find?_eq_some hentry)).2

theorem sound_insert {entries : Entries} (h : (dict entries).Sound) {key value : Candidate}
    (hkey : key.Sound) (hvalue : value.Sound) : (dict (entries.insert key value)).Sound := by
  induction entries with
  | nil =>
    refine sound_dict fun entry hm => ?_
    obtain rfl := List.mem_singleton.mp hm
    exact ⟨hkey, hvalue⟩
  | cons head rest ih =>
    obtain ⟨hhead, hrest⟩ := List.forall_mem_cons.mp (sound_of_mem_dict h)
    rw [Entries.insert]
    split
    · exact sound_dict (List.forall_mem_cons.mpr ⟨⟨hhead.1, hvalue⟩, hrest⟩)
    · exact sound_dict (List.forall_mem_cons.mpr
        ⟨hhead, sound_of_mem_dict (ih (sound_dict hrest))⟩)

theorem sound_of_add {entries entries' : Entries} (h : (dict entries).Sound)
    {pair : Candidate × Candidate} (hpair : pair.1.Sound ∧ pair.2.Sound)
    (hadd : entries.add pair = .ok entries') : (dict entries').Sound := by
  rw [Entries.add] at hadd
  split at hadd
  · cases hadd
    exact sound_insert h hpair.1 hpair.2
  · cases hadd

/-! ### Taking apart -/

theorem sound_content {v : AttributeValue} (h : v.Valid) : v.content.Sound := by
  cases v with
  | timestamp t => exact .timestamp h
  | _ => exact .plain rfl

theorem sound_attributeEntries {e : Event} (h : ∀ entry ∈ e.attributes, entry.2.Valid) :
    (dict e.attributeEntries).Sound := by
  refine sound_dict fun entry hm => ?_
  obtain ⟨held, hheld, rfl⟩ := List.mem_map.mp hm
  exact ⟨.plain rfl, .attributeValue (h held hheld)⟩

theorem sound_dataCandidate (e : Event) : e.dataCandidate.Sound := by
  rw [Event.dataCandidate]
  cases e.data with
  | none => exact .plain rfl
  | some d => exact .eventData d

theorem sound_eventFields {e : Event} (h : e.Valid) : ∀ field ∈ e.fields, field.2.Sound := by
  simp only [Event.fields, List.forall_mem_cons, List.not_mem_nil, false_implies, implies_true,
    and_true]
  exact ⟨.plain rfl, .plain rfl, .plain rfl, .plain rfl, sound_attributeEntries h.value_valid,
    sound_dataCandidate e⟩

theorem sound_of_fields? {c : Candidate} (h : c.Sound) {fields : List (String × Candidate)}
    (hf : c.fields? = some fields) : ∀ field ∈ fields, field.2.Sound := by
  unfold fields? at hf
  split at hf
  case h_5 e => exact Option.some.inj hf ▸ sound_eventFields (valid_of_sound_event h)
  case h_6 => cases hf
  all_goals
    cases hf
    refine forall_mem_pair (.plain rfl) ?_
  · exact .plain rfl
  · exact sound_content (valid_of_sound_attributeValue h)
  · exact .plain rfl
  · rename_i d
    cases d with
    | structured s => exact .structuredData s
    | _ => exact .plain rfl

theorem sound_of_items? {c : Candidate} (h : c.Sound) {items : List Candidate}
    (hi : c.items? = some items) : ∀ item ∈ items, item.Sound := by
  intro item hm
  unfold items? at hi
  split at hi
  case h_4 | h_5 =>
    cases hi
    obtain ⟨b, -, rfl⟩ := List.mem_map.mp hm
    exact .plain rfl
  case h_6 => exact sound_of_mem_list h item (Option.some.inj hi ▸ hm)
  case h_7 => exact sound_of_mem_tuple h item (Option.some.inj hi ▸ hm)
  case h_8 =>
    cases hi
    obtain ⟨entry, hentry, rfl⟩ := List.mem_map.mp hm
    exact (sound_of_mem_dict h entry hentry).1
  case h_9 =>
    cases hi
    obtain ⟨e, he, rfl⟩ := List.mem_map.mp hm
    exact .event (valid_of_sound_batch h e he)
  case h_10 =>
    obtain ⟨fields, hfields, rfl⟩ := Option.map_eq_some_iff.mp hi
    obtain ⟨field, hfield, rfl⟩ := List.mem_map.mp hm
    exact .tuple (forall_mem_pair (.plain rfl) (sound_of_fields? h hfields field hfield))
  all_goals
    obtain ⟨value, -, rfl⟩ := Option.map_eq_some_iff.mp hi
    obtain ⟨char, -, rfl⟩ := List.mem_map.mp hm
    exact .plain rfl

theorem sound_timestampDump (t : Timestamp) : t.dump.Sound :=
  sound_ofFields (forall_mem_pair (.plain rfl) (.plain rfl))

theorem sound_structuredDump (s : StructuredData) : s.dump.Sound :=
  sound_ofFields (forall_mem_pair (.plain rfl) (.plain rfl))

theorem sound_attributeDump (v : AttributeValue) : v.dump.Sound := by
  refine sound_ofFields (forall_mem_pair (.plain rfl) ?_)
  cases v with
  | timestamp t => exact sound_timestampDump t
  | _ => exact .plain rfl

theorem sound_dataDump (d : EventData) : d.dump.Sound := by
  refine sound_ofFields (forall_mem_pair (.plain rfl) ?_)
  cases d with
  | structured s => exact sound_structuredDump s
  | _ => exact .plain rfl

theorem sound_eventDump (e : Event) : e.dump.Sound := by
  have hattributes : (ofFields (e.attributes.map fun entry => (entry.1, entry.2.dump))).Sound := by
    refine sound_ofFields fun field hm => ?_
    obtain ⟨held, -, rfl⟩ := List.mem_map.mp hm
    exact sound_attributeDump held.2
  have hdata : ((e.data.map EventData.dump).getD .null).Sound := by
    cases e.data with
    | none => exact .plain rfl
    | some d => exact sound_dataDump d
  refine sound_ofFields ?_
  simp only [Event.dumpFields, List.forall_mem_cons, List.not_mem_nil, false_implies, implies_true,
    and_true]
  exact ⟨.plain rfl, .plain rfl, .plain rfl, .plain rfl, hattributes, hdata⟩

/-- Dumps hold scalars and dictionaries of them, whatever is dumped. -/
theorem sound_of_dump? {c d : Candidate} (hd : c.dump? = some d) : d.Sound := by
  unfold dump? at hd
  split at hd <;> cases hd
  · exact sound_timestampDump _
  · exact sound_attributeDump _
  · exact sound_structuredDump _
  · exact sound_dataDump _
  · exact sound_eventDump _
  · refine sound_ofFields (List.forall_mem_singleton.mpr (.tuple fun c hm => ?_))
    obtain ⟨e, -, rfl⟩ := List.mem_map.mp hm
    exact sound_eventDump e

/-! ### Dictionaries of any container -/

theorem sound_of_toPair {c : Candidate} (h : c.Sound) {pair : Candidate × Candidate}
    (hp : c.toPair = .ok pair) : pair.1.Sound ∧ pair.2.Sound := by
  rw [toPair] at hp
  split at hp <;> cases hp
  rename_i key value hitems
  have hparts := sound_of_items? h hitems
  exact ⟨hparts key List.mem_cons_self,
    hparts value (List.mem_cons_of_mem _ List.mem_cons_self)⟩

theorem sound_of_toEntries {c : Candidate} (h : c.Sound) {entries : Entries}
    (he : c.toEntries = .ok entries) : (dict entries).Sound := by
  unfold toEntries at he
  split at he
  · exact Except.ok.inj he ▸ h
  · split at he
    · cases he
    · rename_i elements hitems
      have helements := sound_of_items? h hitems
      have hheld : (dict []).Sound := sound_dict_nil
      clear h hitems
      -- the entries taken in so far are sound
      generalize ([] : Entries) = held at he hheld
      induction elements generalizing held with
      | nil => exact Except.ok.inj he ▸ hheld
      | cons element rest ih =>
        obtain ⟨helement, hrest⟩ := List.forall_mem_cons.mp helements
        rw [List.foldlM_cons] at he
        obtain ⟨next, hnext, hfold⟩ := bind_eq_ok_iff.mp he
        obtain ⟨pair, hpair, hadd⟩ := bind_eq_ok_iff.mp hnext
        exact ih hrest next hfold
          (sound_of_add hheld (sound_of_toPair helement hpair) hadd)

/-! ### Readers -/

/-- A model is taken over as it is, or built from a dictionary. -/
theorem readModel_eq_value {α : Type} {built? : Candidate → Option α} {build : Entries → Built α}
    {c : Candidate} {a : α} (h : c.readModel built? build = .value a) :
    (∃ fields, c = dict fields ∧ build fields = .value a) ∨ built? c = some a := by
  unfold readModel at h
  split at h
  · rename_i fields
    exact Or.inl ⟨fields, rfl, h⟩
  · split at h
    · rename_i hbuilt
      exact Or.inr (hbuilt.trans (congrArg some (Built.value.inj h)))
    · cases h

end Candidate

theorem Entries.optional_eq_value {α : Type} {name : String} {default : α}
    {read : Candidate → Built α} {fields : Entries} {a : α}
    (h : fields.optional name default read = .value a) :
    a = default ∨ ∃ c, fields.lookup name = some c ∧ read c = .value a := by
  rw [Entries.optional] at h
  split at h
  · rename_i c hc
    exact Or.inr ⟨c, hc, Built.under_eq_value_iff.mp h⟩
  · exact Or.inl (Built.value.inj h).symm

/-! ### Timestamps and attribute values -/

theorem Timestamp.valid_of_build {fields : Entries} {t : Timestamp}
    (h : Timestamp.build fields = .value t) : t.Valid := by
  obtain ⟨t', -, hcheck⟩ := Built.checked_eq_value_iff.mp h
  obtain ⟨hvalid, rfl⟩ := Timestamp.check_eq_ok_iff.mp hcheck
  exact hvalid

theorem DateTime.valid_of_toTimestamp {d : DateTime} {t : Timestamp}
    (h : d.toTimestamp = .ok t) : t.Valid := by
  rw [DateTime.toTimestamp] at h
  split at h
  · simp only at h
    split at h
    · obtain ⟨hvalid, rfl⟩ := Timestamp.check_eq_ok_iff.mp h
      exact hvalid
    · cases h
  · cases h

theorem Rfc3339.valid_of_assemble? {d : DateTime} {nanos : Int} {zone : List Char} {t : Timestamp}
    (h : Rfc3339.assemble? d nanos zone = some t) : t.Valid := by
  obtain ⟨ahead, -, h⟩ := Option.bind_eq_some_iff.mp h
  obtain ⟨hvalid, ht⟩ := Option.ite_none_right_eq_some.mp h
  exact Option.some.inj ht ▸ hvalid

theorem Timestamp.valid_of_ofRfc3339 {text : String} {t : Timestamp}
    (h : Timestamp.ofRfc3339 text = .ok t) : t.Valid := by
  unfold Timestamp.ofRfc3339 at h
  simp only at h
  split at h
  · cases h
  · split at h
    · cases h
    · split at h
      · cases h
      · rename_i zone _ _ d _ _ _ nanos _
        cases hassemble : Rfc3339.assemble? d nanos zone with
        | none =>
          rw [hassemble] at h
          cases h
        | some t' =>
          rw [hassemble] at h
          exact Except.ok.inj h ▸ Rfc3339.valid_of_assemble? hassemble

theorem Timestamp.valid_of_ofFields {seconds nanos : Int} {t : Timestamp}
    (h : Timestamp.ofFields seconds nanos = .ok t) : t.Valid := by
  rw [Timestamp.ofFields] at h
  split at h
  · obtain ⟨hvalid, rfl⟩ := Timestamp.check_eq_ok_iff.mp (mapError_eq_ok_iff.mp h)
    exact hvalid
  · cases h

theorem AttributeValue.valid_of_ofKind {kind : AttributeKind} {c : Candidate} {v : AttributeValue}
    (h : AttributeValue.ofKind kind c = .ok v) : v.Valid := by
  rw [AttributeValue.ofKind] at h
  split at h
  · obtain ⟨hvalid, rfl⟩ := AttributeValue.check_eq_ok_iff.mp h
    exact hvalid
  · cases h

theorem AttributeValue.valid_of_build {fields : Entries} {v : AttributeValue}
    (h : AttributeValue.build fields = .value v) : v.Valid := by
  obtain ⟨⟨kind, c⟩, -, hkind⟩ := Built.checked_eq_value_iff.mp h
  exact AttributeValue.valid_of_ofKind hkind

theorem AttributeValue.valid_of_create {kind : AttributeKind} {c : Candidate} {v : AttributeValue}
    (h : AttributeValue.create kind c = .ok v) : v.Valid := by
  have hcall := mapError_eq_ok_iff.mp h
  split at hcall
  · rename_i d
    cases ht : d.toTimestamp with
    | error violations =>
      rw [ht] at hcall
      cases hcall
    | ok t =>
      rw [ht] at hcall
      exact Except.ok.inj hcall ▸ DateTime.valid_of_toTimestamp ht
  · exact AttributeValue.valid_of_ofKind hcall

/-! ### Events -/

namespace Candidate

theorem valid_of_readAttribute {entry : Candidate × Candidate} (h : entry.2.Sound)
    {named : String × AttributeValue} (hread : readAttribute entry = .value named) :
    named.2.Valid := by
  simp only [readAttribute, Built.under_eq_value_iff, Built.apply_eq_value_iff] at hread
  obtain ⟨_, v, ⟨_, name, ⟨⟩, -, rfl⟩, hv, rfl⟩ := hread
  obtain ⟨fields, -, hbuild⟩ | hbuilt := readModel_eq_value hv
  · exact AttributeValue.valid_of_build hbuild
  · unfold asAttributeValue? at hbuilt
    split at hbuilt
    · rename_i held hheld
      exact Option.some.inj hbuilt ▸ valid_of_sound_attributeValue (hheld ▸ h)
    · cases hbuilt

theorem valid_of_readAttributes {c : Candidate} (h : c.Sound) {attributes : NameMap AttributeValue}
    (hread : c.readAttributes = .value attributes) :
    attributes.names.Nodup ∧ ∀ entry ∈ attributes, entry.2.Valid := by
  unfold readAttributes at hread
  split at hread
  · obtain ⟨read, hcollect, rfl⟩ := Built.map_eq_value_iff.mp hread
    obtain ⟨hnodup, hmem⟩ := NameMap.ofList_spec read
    refine ⟨hnodup, fun named hm => ?_⟩
    have hvalue := List.mem_map_of_mem (f := Built.value) (hmem named hm)
    rw [← Built.collect_eq_value_iff.mp hcollect] at hvalue
    obtain ⟨entry, hentry, hreadentry⟩ := List.mem_map.mp hvalue
    exact valid_of_readAttribute (sound_of_mem_dict h entry hentry).2 hreadentry
  · cases hread

end Candidate

namespace Event

open Candidate

/-- **Every event passes one gate.** Its rules are checked where it is built; what the check cannot
see, the attribute map, is sound because the fields were. -/
theorem valid_of_build {fields : Entries} (h : (dict fields).Sound) {e : Event}
    (hbuild : build fields = .value e) : e.Valid := by
  obtain ⟨e', hparts, hcheck⟩ := Built.checked_eq_value_iff.mp hbuild
  obtain ⟨hviolations, rfl⟩ := check_eq_ok_iff.mp hcheck
  simp only [Built.alongside_eq_value_iff, Built.apply_eq_value_iff] at hparts
  obtain ⟨⟨_, data, ⟨_, attributes, ⟨_, type, ⟨_, specVersion, ⟨_, source, ⟨_, id, ⟨⟩, -, rfl⟩,
    -, rfl⟩, -, rfl⟩, -, rfl⟩, hattributes, rfl⟩, -, rfl⟩, -⟩ := hparts
  have hmap : attributes.names.Nodup ∧ ∀ entry ∈ attributes, entry.2.Valid := by
    obtain rfl | ⟨c, hlookup, hread⟩ := Entries.optional_eq_value hattributes
    · exact ⟨List.nodup_nil, List.forall_mem_nil _⟩
    · exact valid_of_readAttributes (sound_of_lookup h hlookup) hread
  exact valid_iff.mpr ⟨hviolations, hmap⟩

theorem valid_of_offerField {e e' : Event} (h : e.Valid) {name : String} {c : Candidate}
    (hc : c.Sound) (hoffer : e.offerField name c = .ok e') : e'.Valid := by
  refine valid_of_build (sound_ofFields fun field hm => ?_)
    (Built.toExcept_eq_ok_iff.mp hoffer)
  obtain ⟨held, hheld, rfl⟩ := List.mem_map.mp hm
  split
  · exact hc
  · exact sound_eventFields h held hheld

theorem valid_of_offerAttribute {e e' : Event} (h : e.Valid) {name value : Candidate}
    (hname : name.Sound) (hvalue : value.Sound) (hoffer : e.offerAttribute name value = .ok e') :
    e'.Valid := by
  rw [offerAttribute] at hoffer
  split at hoffer
  · cases hoffer
  · split at hoffer
    · rename_i attributes hadd
      have hentries := sound_attributeEntries h.value_valid
      exact valid_of_offerField h (sound_of_add hentries ⟨hname, hvalue⟩ hadd) hoffer
    · cases hoffer

/-- Unsetting an attribute leaves the others as they were. -/
theorem valid_of_withoutAttribute {e e' : Event} (h : e.Valid) {name : String}
    (hwithout : e.withoutAttribute name = .ok e') : e'.Valid := by
  obtain ⟨hviolations, rfl⟩ := check_eq_ok_iff.mp (mapError_eq_ok_iff.mp hwithout)
  refine valid_iff.mpr ⟨hviolations, ?_, fun entry hm => ?_⟩
  · rw [NameMap.names_erase]
    exact h.names_nodup.filter _
  · exact h.value_valid entry (NameMap.mem_of_mem_erase hm)

end Event

/-! ### Loose arguments -/

namespace EventArguments

/-- The arguments that are given. -/
def given (a : EventArguments) : List Candidate :=
  [a.id, a.source, a.specVersion, a.type, a.attributes, a.binaryData, a.textData,
    a.structuredData].filterMap fun argument => argument

theorem required_mem_given {a : EventArguments} {f : RequiredField} {c : Candidate}
    (h : a.required f = some c) : c ∈ a.given := by
  refine List.mem_filterMap.mpr ⟨some c, ?_, rfl⟩
  rw [← h]
  cases f <;> simp [required]

theorem sound_of_attributeEntries {a : EventArguments} (h : ∀ c ∈ a.given, c.Sound)
    {attributes : Entries} (ha : a.attributeEntries = .ok attributes) :
    (Candidate.dict attributes).Sound := by
  rw [attributeEntries] at ha
  split at ha
  · exact Except.ok.inj ha ▸ Candidate.sound_dict_nil
  · rename_i c hc
    split at ha
    · exact Except.ok.inj ha ▸ Candidate.sound_dict_nil
    · have hgiven : c ∈ a.given := by
        refine List.mem_filterMap.mpr ⟨some c, ?_, rfl⟩
        simp [← hc]
      exact Candidate.sound_of_toEntries (h c hgiven) ha

theorem sound_fields {a : EventArguments} (h : ∀ c ∈ a.given, c.Sound) {attributes : Entries}
    (hattributes : (Candidate.dict attributes).Sound) {data : Candidate} (hdata : data.Sound) :
    (Candidate.dict (a.fields attributes data)).Sound := by
  refine Candidate.sound_ofFields fun field hm => ?_
  obtain hm | hm := List.mem_append.mp hm
  · obtain ⟨f, -, hf⟩ := List.mem_filterMap.mp hm
    obtain ⟨c, hc, rfl⟩ := Option.map_eq_some_iff.mp hf
    exact h c (required_mem_given hc)
  · exact forall_mem_pair (P := fun field => field.2.Sound) hattributes hdata field hm

end EventArguments

namespace Event

theorem valid_of_create {a : EventArguments} (h : ∀ c ∈ a.given, c.Sound) {e : Event}
    (hcreate : create a = .ok e) : e.Valid := by
  by_cases hnone : (RequiredField.all.any fun f => (a.required f).isNone) = true
  · rw [create, if_pos hnone] at hcreate
    cases hcreate
  · rw [create, if_neg hnone] at hcreate
    obtain ⟨attributes, hattributes, hpayloads⟩ := bind_eq_ok_iff.mp hcreate
    have ha := EventArguments.sound_of_attributeEntries h (mapError_eq_ok_iff.mp hattributes)
    split at hpayloads
    · have hnull : Candidate.null.Sound := .plain rfl
      have hfields := EventArguments.sound_fields h ha hnull
      exact valid_of_build hfields (Built.toExcept_eq_ok_iff.mp hpayloads)
    · obtain ⟨data, -, hbuild⟩ := bind_eq_ok_iff.mp hpayloads
      have hfields := EventArguments.sound_fields h ha (.eventData data)
      exact valid_of_build hfields (Built.toExcept_eq_ok_iff.mp hbuild)
    · cases hpayloads

end Event

/-! ### Batches -/

namespace Candidate

theorem valid_of_readEvents {c : Candidate} (h : c.Sound) {events : List Event}
    (hread : c.readEvents = .value events) : ∀ e ∈ events, e.Valid := by
  unfold readEvents at hread
  split at hread
  case h_7 =>
    split at hread
    · rename_i elements hitems
      intro e hm
      have hvalue := List.mem_map_of_mem (f := Built.value) hm
      rw [← Built.collect_eq_value_iff.mp hread] at hvalue
      obtain ⟨⟨element, i⟩, helement, hbuilt⟩ := List.mem_map.mp hvalue
      have hsound := sound_of_items? h hitems element (List.fst_mem_of_mem_zipIdx helement)
      obtain ⟨fields, rfl, hbuild⟩ | hevent :=
        readModel_eq_value (Built.under_eq_value_iff.mp hbuilt)
      · exact Event.valid_of_build hsound hbuild
      · unfold asEvent? at hevent
        split at hevent
        · exact Option.some.inj hevent ▸ valid_of_sound_event hsound
        · cases hevent
    · cases hread
  all_goals cases hread

end Candidate

theorem Batch.valid_of_build {fields : Entries} (h : (Candidate.dict fields).Sound) {b : Batch}
    (hbuild : Batch.build fields = .value b) : ∀ e ∈ b.events, e.Valid := by
  simp only [Batch.build, Built.alongside_eq_value_iff, Built.apply_eq_value_iff] at hbuild
  obtain ⟨⟨_, events, ⟨⟩, hevents, rfl⟩, -⟩ := hbuild
  obtain rfl | ⟨c, hlookup, hread⟩ := Entries.optional_eq_value hevents
  · exact List.forall_mem_nil _
  · exact Candidate.valid_of_readEvents (Candidate.sound_of_lookup h hlookup) hread

/-! ### Bytes -/

/-- The log of a call stands beside its result. -/
theorem Codec.result_decodeLogged (c : Codec) (bytes : Bytes) :
    (c.decodeLogged bytes).result = c.decode bytes := by
  rw [Codec.decodeLogged]
  cases c.decode bytes <;> rfl

theorem Codec.result_decodeBatchLogged (c : Codec) (bytes : Bytes) :
    (c.decodeBatchLogged bytes).result = c.decodeBatch bytes := by
  rw [Codec.decodeBatchLogged]
  cases c.decodeBatch bytes with
  | ok b => rfl
  | error err => obtain ⟨fault, _ | i⟩ := err <;> rfl

theorem Codec.valid_of_decode {c : Codec} {bytes : Bytes} {e : Event}
    (h : c.decode bytes = .ok e) : e.Valid :=
  (Codec.decode_eq_ok_iff.mp h).2.2

theorem Codec.valid_of_decodeBatch {c : Codec} {bytes : Bytes} {b : Batch}
    (h : c.decodeBatch bytes = .ok b) : ∀ e ∈ b.events, e.Valid := by
  obtain ⟨m, hm, hbatch⟩ := bind_eq_ok_iff.mp h
  obtain ⟨-, hparse⟩ := Codec.parse_eq_ok_iff.mp (mapError_eq_ok_iff.mp hm)
  have hnames := BatchMessage.names_nodup_of_parse hparse
  rw [BatchMessage.toBatch_eq] at hbatch
  split at hbatch
  · cases hbatch
  · obtain ⟨events, hevents, rfl⟩ := map_eq_ok_iff.mp hbatch
    intro e he
    obtain ⟨⟨event, i⟩, hmem, hevent⟩ := exists_mem_of_mapM_eq_ok hevents e he
    have hnodup := hnames event (List.fst_mem_of_mem_zipIdx hmem)
    exact ((EventMessage.toEvent_eq_ok_iff_valid hnodup).mp (mapError_eq_ok_iff.mp hevent)).2

end CloudEvents
