import CloudEvents.Proofs.Interpretation
import Mathlib.Data.Option.Basic

/-!
# Written forms are distinct

Two different events are never written alike. Below 2 GiB this follows from reading: what is written
is read back, so a common form would be read as two events. Here it is proved without a bound, since
a writer asks for none, and a form that is too long for a reader still belongs to one event.

The argument goes along the form and not along a reader. Every piece ends by itself: a varint at the
first byte below 128, a delimited payload where its length says. So equal bytes have equal first
records and equal rests, and equal lists of records follow by induction. From there on it is about
records, where the number of the field carries the kind of a value and the member of a payload, and
where `apply`, which knows of no lengths, takes a single record back to its value.

## Main results

* `Record.encode_append_inj`, `encodeRecords_injective` — records and their bytes
* `AttributeValue.record_injective`, `EventData.record_injective` — values and payloads
* `EventMessage.encode_ofEvent_injective` — valid events
-/

namespace CloudEvents

/-! ### Varints and texts -/

/-- A varint in front of other bytes determines its number and the bytes behind. -/
theorem Varint.encode_append_inj {m n : Nat} {rest rest' : Bytes}
    (h : encode m ++ rest = encode n ++ rest') : m = n ∧ rest = rest' := by
  -- a limit that is large enough for both numbers
  have hlimit {k : Nat} (hk : k ≤ max m n) : k < Nat.pow 128 (max m n + 1) := by
    have hpow : max m n + 1 < Nat.pow 128 (max m n + 1) := Nat.lt_pow_self (by decide)
    omega
  have hm := read_encode (hlimit (Nat.le_max_left m n)) (Nat.succ_pos _) rest
  have hn := read_encode (hlimit (Nat.le_max_right m n)) (Nat.succ_pos _) rest'
  rw [h, hn] at hm
  obtain ⟨hvalue, hrest⟩ := Prod.mk.inj (Option.some.inj hm)
  exact ⟨hvalue.symm, hrest.symm⟩

theorem Bytes.ofText_injective {text text' : String} (h : ofText text = ofText text') :
    text = text' := by
  have hread := toText?_ofText text
  rw [h, toText?_ofText] at hread
  exact (Option.some.inj hread).symm

/-! ### Records -/

/-- A payload of a fixed width has that width. -/
def Payload.Sized : Payload → Prop
  | fixed64 bytes => bytes.length = 8
  | fixed32 bytes => bytes.length = 4
  | _ => True

theorem Payload.encode_append_inj {number : Nat} {p q : Payload} (hp : p.Sized) (hq : q.Sized)
    (hw : p.wireType = q.wireType) {rest rest' : Bytes}
    (h : p.encode number ++ rest = q.encode number ++ rest') : p = q ∧ rest = rest' := by
  cases p with
  | varint value =>
    cases q with
    | varint value' =>
      obtain ⟨rfl, hrest⟩ := Varint.encode_append_inj h
      exact ⟨rfl, hrest⟩
    | _ => cases hw
  | fixed64 bytes =>
    cases q with
    | fixed64 bytes' =>
      obtain ⟨hbytes, hrest⟩ := List.append_inj h (hp.trans hq.symm)
      exact ⟨congrArg fixed64 hbytes, hrest⟩
    | _ => cases hw
  | delimited bytes =>
    cases q with
    | delimited bytes' =>
      rw [encode, encode, List.append_assoc, List.append_assoc] at h
      obtain ⟨hlength, hbody⟩ := Varint.encode_append_inj h
      obtain ⟨hbytes, hrest⟩ := List.append_inj hbody hlength
      exact ⟨congrArg delimited hbytes, hrest⟩
    | _ => cases hw
  | group =>
    cases q with
    | group => exact ⟨rfl, List.append_cancel_left h⟩
    | _ => cases hw
  | fixed32 bytes =>
    cases q with
    | fixed32 bytes' =>
      obtain ⟨hbytes, hrest⟩ := List.append_inj h (hp.trans hq.symm)
      exact ⟨congrArg fixed32 hbytes, hrest⟩
    | _ => cases hw

/-- A record in front of other bytes is determined, and so are the bytes behind. -/
theorem Record.encode_append_inj {r r' : Record} (hr : r.payload.Sized) (hr' : r'.payload.Sized)
    {rest rest' : Bytes} (h : r.encode ++ rest = r'.encode ++ rest') : r = r' ∧ rest = rest' := by
  obtain ⟨number, payload⟩ := r
  obtain ⟨number', payload'⟩ := r'
  rw [Record.encode, Record.encode, List.append_assoc, List.append_assoc] at h
  obtain ⟨htag, hpayload⟩ := Varint.encode_append_inj h
  simp only at htag
  have hw := payload.wireType_lt
  have hw' := payload'.wireType_lt
  obtain rfl : number = number' := by omega
  have hwire : payload.wireType = payload'.wireType := by omega
  obtain ⟨rfl, hrest⟩ := Payload.encode_append_inj hr hr' hwire hpayload
  exact ⟨rfl, hrest⟩

/-- **Lists of records are written differently.** -/
theorem encodeRecords_injective {rs rs' : List Record} (hrs : ∀ r ∈ rs, r.payload.Sized)
    (hrs' : ∀ r ∈ rs', r.payload.Sized) (h : encodeRecords rs = encodeRecords rs') : rs = rs' := by
  induction rs generalizing rs' with
  | nil =>
    cases rs' with
    | nil => rfl
    | cons r' rest' => exact absurd (List.append_eq_nil_iff.mp h.symm).1 r'.encode_ne_nil
  | cons r rest ih =>
    cases rs' with
    | nil => exact absurd (List.append_eq_nil_iff.mp h).1 r.encode_ne_nil
    | cons r' rest' =>
      obtain ⟨hr, hrest⟩ := List.forall_mem_cons.mp hrs
      obtain ⟨hr', hrest'⟩ := List.forall_mem_cons.mp hrs'
      obtain ⟨rfl, hbytes⟩ := Record.encode_append_inj hr hr' h
      rw [ih hrest hrest' hbytes]

/-- One record on its own. -/
theorem Record.encode_injective {r r' : Record} (hr : r.payload.Sized) (hr' : r'.payload.Sized)
    (h : encodeRecords [r] = encodeRecords [r']) : r = r' :=
  List.singleton_inj.mp (encodeRecords_injective (List.forall_mem_singleton.mpr hr)
    (List.forall_mem_singleton.mpr hr') h)

/-! ### Embedded messages -/

theorem StructuredData.encode_injective {s s' : StructuredData} (h : s.encode = s'.encode) :
    s = s' := by
  have hsized (s : StructuredData) : ∀ r ∈ s.records, r.payload.Sized := by
    intro r hr
    simp only [records, List.mem_append, List.mem_ite_nil_left, List.mem_singleton] at hr
    obtain ⟨-, rfl⟩ | ⟨-, rfl⟩ := hr <;> trivial
  have hrecords : s.records = s'.records := encodeRecords_injective (hsized s) (hsized s') h
  have hfold := foldlM_records s
  rw [hrecords, foldlM_records] at hfold
  exact (Option.some.inj hfold).symm

/-! ### Values and payloads -/

theorem AttributeValue.sized_record (v : AttributeValue) : v.record.payload.Sized := by
  cases v <;> trivial

/-- The record of a value tells its kind and its content. -/
theorem AttributeValue.record_injective {v v' : AttributeValue} (hv : v.Valid) (hv' : v'.Valid)
    (h : v.record = v'.record) : v = v' := by
  have hread : AttributeMessage.apply maxDepth {} v.record = some { value := some v } :=
    AttributeMessage.apply_record rfl hv
  rw [h, AttributeMessage.apply_record rfl hv'] at hread
  have hvalue : some v' = some v := (AttributeMessage.mk.inj (Option.some.inj hread)).1
  exact (Option.some.inj hvalue).symm

/-- The record of a payload tells which of the three it is. -/
theorem EventData.record_injective {d d' : EventData} (h : d.record = d'.record) : d = d' := by
  cases d with
  | binary b =>
    cases d' with
    | binary b' =>
      cases h
      rfl
    | _ => cases h
  | text s =>
    cases d' with
    | text s' =>
      have hbytes : Bytes.ofText s = Bytes.ofText s' :=
        Payload.delimited.inj (congrArg Record.payload h)
      rw [Bytes.ofText_injective hbytes]
    | _ => cases h
  | structured s =>
    cases d' with
    | structured s' =>
      have hbytes : s.encode = s'.encode := Payload.delimited.inj (congrArg Record.payload h)
      rw [StructuredData.encode_injective hbytes]
    | _ => cases h

/-! ### Attributes -/

theorem attributeRecord_injective {entry entry' : String × AttributeValue} (hv : entry.2.Valid)
    (hv' : entry'.2.Valid) (h : attributeRecord entry = attributeRecord entry') :
    entry = entry' := by
  obtain ⟨name, v⟩ := entry
  obtain ⟨name', v'⟩ := entry'
  have hbody : entryBody name { value := some v } = entryBody name' { value := some v' } :=
    Payload.delimited.inj (congrArg Record.payload h)
  have hsized (name : String) (value : AttributeMessage) :
      ∀ r ∈ [(⟨1, .delimited (Bytes.ofText name)⟩ : Record), ⟨2, .delimited value.encode⟩],
        r.payload.Sized :=
    List.forall_mem_cons.mpr ⟨trivial, List.forall_mem_singleton.mpr trivial⟩
  have hrecords := encodeRecords_injective (hsized _ _) (hsized _ _) hbody
  obtain ⟨hname, hrest⟩ := List.cons.inj hrecords
  obtain ⟨hvalue, -⟩ := List.cons.inj hrest
  have htext : Bytes.ofText name = Bytes.ofText name' :=
    Payload.delimited.inj (congrArg Record.payload hname)
  have hform : encodeRecords [v.record] = encodeRecords [v'.record] :=
    Payload.delimited.inj (congrArg Record.payload hvalue)
  have hrecord := Record.encode_injective v.sized_record v'.sized_record hform
  obtain rfl := AttributeValue.record_injective hv hv' hrecord
  rw [Bytes.ofText_injective htext]

theorem map_attributeRecord_injective {entries entries' : NameMap AttributeValue}
    (hv : ∀ entry ∈ entries, entry.2.Valid) (hv' : ∀ entry ∈ entries', entry.2.Valid)
    (h : entries.map attributeRecord = entries'.map attributeRecord) : entries = entries' := by
  induction entries generalizing entries' with
  | nil => exact (List.map_eq_nil_iff.mp h.symm).symm
  | cons entry rest ih =>
    cases entries' with
    | nil => cases h
    | cons entry' rest' =>
      obtain ⟨hhead, htail⟩ := List.cons.inj h
      obtain ⟨hentry, hrest⟩ := List.forall_mem_cons.mp hv
      obtain ⟨hentry', hrest'⟩ := List.forall_mem_cons.mp hv'
      rw [attributeRecord_injective hentry hentry' hhead, ih hrest hrest' htail]

/-! ### Events -/

namespace Event

theorem sized_of_mem_records {e : Event} {written : List RequiredField} :
    ∀ r ∈ e.records written, r.payload.Sized := by
  intro r hr
  obtain ⟨number, bytes, rfl, -, -⟩ := exists_delimited_of_mem_records hr
  trivial

theorem present_eq_all {e : Event} (h : ∀ f, e.required f ≠ "") : e.present = RequiredField.all :=
  List.filter_eq_self.mpr fun f _ => decide_eq_true (h f)

/-- Of the records behind the texts, the number tells which are those of the attributes. -/
theorem filter_attributeRecords (e : Event) :
    (e.attributes.map attributeRecord ++ (e.data.map EventData.record).toList).filter
        (fun r => r.number = attributesField) = e.attributes.map attributeRecord := by
  have hattributes : (e.attributes.map attributeRecord).filter
      (fun r => r.number = attributesField) = e.attributes.map attributeRecord := by
    refine List.filter_eq_self.mpr fun r hr => ?_
    obtain ⟨entry, -, rfl⟩ := List.mem_map.mp hr
    rfl
  have hdata : (e.data.map EventData.record).toList.filter
      (fun r => r.number = attributesField) = [] := by
    refine List.filter_eq_nil_iff.mpr fun r hr => ?_
    obtain ⟨d, -, rfl⟩ := Option.map_eq_some_iff.mp (Option.mem_toList.mp hr)
    cases d <;> simp [EventData.record, DataKind.fieldNumber, attributesField]
  rw [List.filter_append, hattributes, hdata, List.append_nil]

theorem records_injective {e e' : Event} (hv : ∀ entry ∈ e.attributes, entry.2.Valid)
    (hv' : ∀ entry ∈ e'.attributes, entry.2.Valid)
    (h : e.records RequiredField.all = e'.records RequiredField.all) : e = e' := by
  rw [records, records, List.append_assoc, List.append_assoc] at h
  obtain ⟨htexts, hrest⟩ := List.append_inj h (by rw [List.length_map, List.length_map])
  have hrequired (f : RequiredField) : e.required f = e'.required f := by
    have hrecord := List.map_inj_left.mp htexts f (RequiredField.mem_all f)
    exact Bytes.ofText_injective (Payload.delimited.inj (congrArg Record.payload hrecord))
  have hattributes : e.attributes.map attributeRecord = e'.attributes.map attributeRecord := by
    rw [← filter_attributeRecords e, hrest, filter_attributeRecords e']
  have hdata : e.data.map EventData.record = e'.data.map EventData.record := by
    rw [hattributes] at hrest
    have hhead := congrArg List.head? (List.append_cancel_left hrest)
    rwa [Option.head?_toList, Option.head?_toList] at hhead
  have hid : e.id = e'.id := hrequired .id
  have hsource : e.source = e'.source := hrequired .source
  have hspec : e.specVersion = e'.specVersion := hrequired .specVersion
  have htype : e.type = e'.type := hrequired .type
  have hentries := map_attributeRecord_injective hv hv' hattributes
  have hpayload : e.data = e'.data :=
    Option.map_injective (fun _ _ => EventData.record_injective) hdata
  obtain ⟨id, source, specVersion, type, attributes, data⟩ := e
  subst hid hsource hspec htype hentries hpayload
  rfl

end Event

/-- Where no text is empty, all of them are written. -/
theorem EventMessage.encode_eq_records {e : Event} (h : ∀ f, e.required f ≠ "") :
    (ofEvent e).encode = encodeRecords (e.records RequiredField.all) := by
  rw [encode, records_ofEvent, Event.present_eq_all h]

/-- **Valid events are written differently**, as long as their attributes are written in the order
in which the events hold them. -/
theorem EventMessage.encode_ofEvent_injective {e e' : Event} (he : e.Valid) (he' : e'.Valid)
    (h : (ofEvent e).encode = (ofEvent e').encode) : e = e' := by
  rw [encode_eq_records he.required_ne_empty, encode_eq_records he'.required_ne_empty] at h
  have hrecords := encodeRecords_injective Event.sized_of_mem_records Event.sized_of_mem_records h
  exact Event.records_injective he.value_valid he'.value_valid hrecords

end CloudEvents
