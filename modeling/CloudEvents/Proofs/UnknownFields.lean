import CloudEvents.Proofs.Interpretation
import CloudEvents.Schema

/-!
# Undeclared fields

A message may carry fields that its schema does not declare, and so may every message inside it.
Reading keeps such a field aside in three of the five message types that an event is made of: in the
event, in an entry of the attribute map, and in an attribute value. What is kept aside at the end is
refused. This module follows the fields down to the places where they stand and says which of them
are found.

Two things are lost on the way. Timestamps and typed messages keep nothing aside. And an attribute
value goes out of use, with all that it keeps, when a later entry of the same key takes its place;
its entry itself does not, since an entry with undeclared fields never reaches the map.

## Main definitions

* `MessageType`, `MessageType.Declares` — the message types of the schema and their fields
* `recordsAt` — the message at a path, as its type and its records
* `Strict` — nothing undeclared at any path
* `PassedOver` — the places that nobody looks at

## Main results

* `passedOver_of_undeclared` — an undeclared field in accepted bytes stands in such a place
-/

namespace CloudEvents

/-! ### The schema -/

/-- The types of the messages that an event is made of. -/
inductive MessageType where
  | event
  | entry
  | value
  | timestamp
  | typedMessage
  deriving DecidableEq

/-- The wire type in which values of a field type are carried. -/
def FieldType.wireType : FieldType → Nat
  | bool | int32 => 0
  | string | bytes | message _ => 2

/-- The numbers of the fields of a message, with the wire types that they have. -/
def MessageSchema.wireFields (s : MessageSchema) : List (Nat × Nat) :=
  s.fields.map fun f => (f.number, f.type.wireType)

namespace MessageType

/-- The fields that a message of the type declares: two varints for a timestamp, and for a typed
message two fields of bytes. -/
def fields : MessageType → List (Nat × Nat)
  | event => eventSchema.wireFields
  | entry => entrySchema.wireFields
  | value => attributeSchema.wireFields
  | timestamp => [(1, 0), (2, 0)]
  | typedMessage => [(1, 2), (2, 2)]

/-- A record of a declared field, in the wire type of that field. -/
def Declares (t : MessageType) (r : Record) : Prop := (r.number, r.payload.wireType) ∈ t.fields

instance (t : MessageType) : DecidablePred t.Declares := fun r =>
  inferInstanceAs (Decidable ((r.number, r.payload.wireType) ∈ t.fields))

@[simp] theorem fields_event : event.fields
    = [(1, 2), (2, 2), (3, 2), (4, 2), (5, 2), (6, 2), (7, 2), (8, 2)] := rfl

@[simp] theorem fields_entry : entry.fields = [(1, 2), (2, 2)] := rfl

@[simp] theorem fields_value : value.fields
    = [(1, 0), (2, 0), (3, 2), (4, 2), (5, 2), (6, 2), (7, 2)] := rfl

/-- The message that a record of a message carries, with its type. -/
def part? : MessageType → Record → Option (MessageType × Bytes)
  | event, ⟨5, .delimited body⟩ => some (entry, body)
  | event, ⟨8, .delimited body⟩ => some (typedMessage, body)
  | entry, ⟨2, .delimited body⟩ => some (value, body)
  | value, ⟨7, .delimited body⟩ => some (timestamp, body)
  | _, _ => none

end MessageType

/-! ### Places -/

/-- The message at a path, which is a list of positions of records from the outside in. -/
def recordsAt (depth : Nat) (t : MessageType) (body : Bytes) :
    List Nat → Option (MessageType × List Record)
  | [] => (readRecords depth [] body).map fun rs => (t, rs)
  | i :: path =>
    (readRecords depth [] body).bind fun rs =>
      (rs[i]?.bind t.part?).bind fun part => recordsAt (depth - 1) part.1 part.2 path

/-- No message inside the event carries anything but declared fields. -/
def Strict (bytes : Bytes) : Prop :=
  ∀ path t rs, recordsAt maxDepth .event bytes path = some (t, rs) → ∀ r ∈ rs, t.Declares r

/-- The key of the entry that a record of an event carries. -/
def entryKey? (depth : Nat) : Record → Option String
  | ⟨5, .delimited body⟩ => (EntryMessage.parse (depth - 1) body).map EntryMessage.key
  | _ => none

/-- Among the records of an event, a later entry has the key of the one at the position. -/
def Superseded (depth : Nat) (rs : List Record) (i : Nat) : Prop :=
  ∃ key j, i < j ∧ rs[i]?.bind (entryKey? depth) = some key
    ∧ rs[j]?.bind (entryKey? depth) = some key

/-- The places at which undeclared fields are passed over: timestamps, typed messages, and values of
entries that are superseded. -/
def PassedOver (bytes : Bytes) (path : List Nat) : MessageType → Prop
  | .timestamp | .typedMessage => True
  | .value => ∃ rs i, readRecords maxDepth [] bytes = some rs ∧ path.head? = some i
    ∧ Superseded maxDepth rs i
  | .event | .entry => False

variable {depth : Nat}

theorem recordsAt_cons_eq_some_iff {t : MessageType} {body : Bytes} {i : Nat} {path : List Nat}
    {found : MessageType × List Record} :
    recordsAt depth t body (i :: path) = some found
      ↔ ∃ rs r part, readRecords depth [] body = some rs ∧ rs[i]? = some r
        ∧ t.part? r = some part ∧ recordsAt (depth - 1) part.1 part.2 path = some found := by
  simp only [recordsAt, Option.bind_eq_some_iff]
  constructor
  · rintro ⟨rs, hrs, part, ⟨r, hr, hpart⟩, hfound⟩
    exact ⟨rs, r, part, hrs, hr, hpart, hfound⟩
  · rintro ⟨rs, r, part, hrs, hr, hpart, hfound⟩
    exact ⟨rs, hrs, part, ⟨r, hr, hpart⟩, hfound⟩

theorem entryKey?_of_parse {body : Bytes} {entry : EntryMessage}
    (h : EntryMessage.parse (depth - 1) body = some entry) :
    entryKey? depth ⟨5, .delimited body⟩ = some entry.key := by
  rw [entryKey?, h, Option.map_some]

/-- The four ways in which one message is part of another. -/
theorem MessageType.part?_eq_some {t : MessageType} {r : Record} {part : MessageType × Bytes}
    (h : t.part? r = some part) :
    (t = event ∧ r = ⟨5, .delimited part.2⟩ ∧ part.1 = entry)
    ∨ (t = event ∧ r = ⟨8, .delimited part.2⟩ ∧ part.1 = typedMessage)
    ∨ (t = entry ∧ r = ⟨2, .delimited part.2⟩ ∧ part.1 = value)
    ∨ (t = value ∧ r = ⟨7, .delimited part.2⟩ ∧ part.1 = timestamp) := by
  unfold part? at h
  split at h <;> cases h <;> simp

theorem entryKey?_eq_some {r : Record} {key : String} (h : entryKey? depth r = some key) :
    ∃ body entry, r = ⟨5, .delimited body⟩ ∧ EntryMessage.parse (depth - 1) body = some entry
      ∧ entry.key = key := by
  unfold entryKey? at h
  split at h
  · rename_i body
    obtain ⟨entry, hentry, hkey⟩ := Option.map_eq_some_iff.mp h
    exact ⟨body, entry, rfl, hentry, hkey⟩
  · cases h

/-! ### What is kept aside -/

/-- A value keeps every undeclared field aside, so if nothing is aside at the end, none came. -/
theorem AttributeMessage.declares_of_apply {m m' : AttributeMessage} {r : Record}
    (h : m.apply depth r = some m') (hm' : m'.unknown = []) :
    m.unknown = [] ∧ MessageType.value.Declares r := by
  rw [AttributeMessage.apply] at h
  split at h
  case h_8 =>
    cases h
    exact absurd hm' (List.append_ne_nil_of_right_ne_nil _ (List.cons_ne_nil r []))
  case h_1 | h_2 | h_4 =>
    rename_i hnumber hpayload
    cases h
    exact ⟨hm', by simp [MessageType.Declares, Payload.wireType, hnumber, hpayload]⟩
  all_goals
    rename_i hnumber hpayload
    obtain ⟨_, -, rfl⟩ := Option.map_eq_some_iff.mp h
    exact ⟨hm', by simp [MessageType.Declares, Payload.wireType, hnumber, hpayload]⟩

theorem EntryMessage.declares_of_apply {m m' : EntryMessage} {r : Record}
    (h : m.apply depth r = some m') (hm' : m'.unknown = []) :
    m.unknown = [] ∧ MessageType.entry.Declares r := by
  rw [EntryMessage.apply] at h
  split at h
  case h_3 =>
    cases h
    exact absurd hm' (List.append_ne_nil_of_right_ne_nil _ (List.cons_ne_nil r []))
  all_goals
    rename_i hnumber hpayload
    obtain ⟨_, -, rfl⟩ := Option.map_eq_some_iff.mp h
    exact ⟨hm', by simp [MessageType.Declares, Payload.wireType, hnumber, hpayload]⟩

/-- An event keeps undeclared fields aside, and so it keeps entries that have such fields
themselves. -/
theorem EventMessage.declares_of_apply {m m' : EventMessage} {r : Record}
    (h : m.apply depth r = some m') (hm' : m'.unknown = []) :
    m.unknown = [] ∧ MessageType.event.Declares r
      ∧ ∀ body, r = ⟨5, .delimited body⟩ →
        ∃ entry, EntryMessage.parse (depth - 1) body = some entry ∧ entry.unknown = [] := by
  rw [EventMessage.apply] at h
  split at h
  case h_5 hnumber hpayload =>
    obtain ⟨entry, hentry, rfl⟩ := Option.map_eq_some_iff.mp h
    rw [addEntry] at hm'
    split at hm'
    · rename_i hempty
      refine ⟨hm', by simp [MessageType.Declares, Payload.wireType, hnumber, hpayload], ?_⟩
      rintro body rfl
      cases hpayload
      exact ⟨entry, hentry, List.isEmpty_iff.mp hempty⟩
    · exact absurd hm' (List.append_ne_nil_of_right_ne_nil _ (List.cons_ne_nil r []))
  case h_9 =>
    cases h
    exact absurd hm' (List.append_ne_nil_of_right_ne_nil _ (List.cons_ne_nil r []))
  case h_6 hnumber hpayload =>
    cases h
    refine ⟨hm', by simp [MessageType.Declares, Payload.wireType, hnumber, hpayload], ?_⟩
    rintro body rfl
    cases hnumber
  all_goals
    rename_i hnumber hpayload
    obtain ⟨_, -, rfl⟩ := Option.map_eq_some_iff.mp h
    refine ⟨hm', by simp [MessageType.Declares, Payload.wireType, hnumber, hpayload], ?_⟩
    rintro body rfl
    cases hnumber

theorem EventMessage.declares_of_foldlM {m m' : EventMessage} {rs : List Record}
    (h : rs.foldlM (apply depth) m = some m') (hm' : m'.unknown = []) :
    m.unknown = [] ∧ ∀ r ∈ rs, MessageType.event.Declares r
      ∧ ∀ body, r = ⟨5, .delimited body⟩ →
        ∃ entry, EntryMessage.parse (depth - 1) body = some entry ∧ entry.unknown = [] :=
  foldlM_backward (P := fun m => m.unknown = []) declares_of_apply h hm'

/-- An entry whose value keeps nothing aside holds no value that carried anything undeclared. -/
theorem EntryMessage.value_declares_of_apply {m m' : EntryMessage} {r : Record}
    (h : m.apply depth r = some m') (hm' : m'.value.unknown = []) :
    m.value.unknown = [] ∧ ∀ body, r = ⟨2, .delimited body⟩ →
      ∃ rs, readRecords (depth - 1) [] body = some rs ∧ ∀ r ∈ rs, MessageType.value.Declares r := by
  rw [EntryMessage.apply] at h
  split at h
  case h_1 hnumber _ =>
    obtain ⟨_, -, rfl⟩ := Option.map_eq_some_iff.mp h
    refine ⟨hm', ?_⟩
    rintro body rfl
    cases hnumber
  case h_2 hpayload =>
    obtain ⟨v, hv, rfl⟩ := Option.map_eq_some_iff.mp h
    obtain ⟨rs, hrs, hfold⟩ := mergeMessage_eq_some_iff.mp hv
    have hv' : v.unknown = [] := hm'
    obtain ⟨hheld, hdeclares⟩ := foldlM_backward
      (P := fun v => v.unknown = []) AttributeMessage.declares_of_apply hfold hv'
    refine ⟨hheld, ?_⟩
    rintro body rfl
    cases hpayload
    exact ⟨rs, hrs, hdeclares⟩
  case h_3 hne =>
    cases h
    refine ⟨hm', ?_⟩
    rintro body rfl
    exact absurd rfl (hne body rfl)

/-! ### Which entry is in use -/

theorem EventMessage.lookup_of_apply {m m' : EventMessage} {r : Record} {key : String}
    (h : m.apply depth r = some m') (hkey : entryKey? depth r ≠ some key) :
    m'.attributes.lookup key = m.attributes.lookup key := by
  rw [EventMessage.apply] at h
  split at h
  case h_5 body hnumber hpayload =>
    obtain ⟨entry, hentry, rfl⟩ := Option.map_eq_some_iff.mp h
    have hr : r = ⟨5, .delimited body⟩ := by rw [← hnumber, ← hpayload]
    have hne : key ≠ entry.key := by
      rintro rfl
      exact hkey (hr ▸ entryKey?_of_parse hentry)
    rw [addEntry]
    split
    · exact (NameMap.lookup_insert _ _ _ key).trans (if_neg hne)
    · rfl
  case h_6 | h_9 =>
    cases h
    rfl
  all_goals
    obtain ⟨_, -, rfl⟩ := Option.map_eq_some_iff.mp h
    rfl

theorem EventMessage.lookup_of_foldlM {rs : List Record} {m m' : EventMessage} {key : String}
    (h : rs.foldlM (apply depth) m = some m') (hkey : ∀ r ∈ rs, entryKey? depth r ≠ some key) :
    m'.attributes.lookup key = m.attributes.lookup key := by
  induction rs generalizing m with
  | nil =>
    cases h
    rfl
  | cons r rest ih =>
    obtain ⟨hr, hrest⟩ := List.forall_mem_cons.mp hkey
    obtain ⟨next, hnext, hfold⟩ := Option.bind_eq_some_iff.mp h
    rw [ih hfold hrest, lookup_of_apply hnext hr]

theorem eq_take_append_cons_drop {rs : List Record} {i : Nat} {r : Record}
    (h : rs[i]? = some r) : rs = rs.take i ++ r :: rs.drop (i + 1) := by
  obtain ⟨hi, rfl⟩ := List.getElem?_eq_some_iff.mp h
  rw [List.getElem_cons_drop, List.take_append_drop]

/-- An entry that no later one supersedes is the one that is found under its key. -/
theorem EventMessage.lookup_of_not_superseded {rs : List Record} {m : EventMessage}
    (h : rs.foldlM (apply depth) {} = some m) {i : Nat} {body : Bytes}
    (hi : rs[i]? = some ⟨5, .delimited body⟩) (hlast : ¬ Superseded depth rs i)
    {entry : EntryMessage} (hentry : EntryMessage.parse (depth - 1) body = some entry)
    (hknown : entry.unknown = []) : m.attributes.lookup entry.key = some entry.value := by
  rw [eq_take_append_cons_drop hi] at h
  obtain ⟨before, after, -, hafter, hback⟩ := foldlM_append_cons_eq_some_iff.mp h
  have hlater : ∀ r ∈ rs.drop (i + 1), entryKey? depth r ≠ some entry.key := by
    intro r hr hsame
    obtain ⟨k, hk⟩ := List.mem_iff_getElem?.mp hr
    rw [List.getElem?_drop] at hk
    exact hlast ⟨entry.key, i + 1 + k, by omega, hi ▸ entryKey?_of_parse hentry, hk ▸ hsame⟩
  rw [lookup_of_foldlM hback hlater]
  obtain ⟨entry', hentry', rfl⟩ := Option.map_eq_some_iff.mp hafter
  obtain rfl := Option.some.inj (hentry.symm.trans hentry')
  rw [addEntry, if_pos (List.isEmpty_iff.mpr hknown)]
  exact (NameMap.lookup_insert _ _ _ entry.key).trans (if_pos rfl)

/-! ### Where undeclared fields stand -/

/-- Timestamps and typed messages hold no further message. -/
theorem type_of_recordsAt_leaf {t t' : MessageType} (ht : t = .timestamp ∨ t = .typedMessage)
    {body : Bytes} {path : List Nat} {rs : List Record}
    (h : recordsAt depth t body path = some (t', rs)) : t' = t := by
  cases path with
  | nil =>
    obtain ⟨_, -, hfound⟩ := Option.map_eq_some_iff.mp h
    exact (congrArg Prod.fst hfound).symm
  | cons i path =>
    obtain ⟨_, r, part, -, -, hpart, -⟩ := recordsAt_cons_eq_some_iff.mp h
    obtain rfl | rfl := ht <;> cases hpart

/-- A value holds nothing but timestamps. -/
theorem recordsAt_value {t : MessageType} {body : Bytes} {path : List Nat} {rs : List Record}
    (h : recordsAt depth .value body path = some (t, rs)) :
    t = .timestamp ∨ (t = .value ∧ readRecords depth [] body = some rs) := by
  cases path with
  | nil =>
    obtain ⟨_, hrs, hfound⟩ := Option.map_eq_some_iff.mp h
    cases hfound
    exact Or.inr ⟨rfl, hrs⟩
  | cons i path =>
    obtain ⟨_, r, ⟨t', body'⟩, -, -, hpart, hinner⟩ := recordsAt_cons_eq_some_iff.mp h
    obtain ⟨⟨⟩, -⟩ | ⟨⟨⟩, -⟩ | ⟨⟨⟩, -⟩ | ⟨-, -, rfl⟩ := MessageType.part?_eq_some hpart
    exact Or.inl (type_of_recordsAt_leaf (Or.inl rfl) hinner)

/-- The entries of an accepted event carry their key and their value and nothing else, and of those
that are in use the values carry declared fields only. -/
theorem declares_of_recordsAt_entry {bytes : Bytes} {e : Event}
    (h : EventMessage.parse depth bytes = some (.ofEvent e)) {events : List Record}
    (hevents : readRecords depth [] bytes = some events) {i : Nat} {body : Bytes}
    (hi : events[i]? = some ⟨5, .delimited body⟩) {path : List Nat} {t : MessageType}
    {rs : List Record} (hat : recordsAt (depth - 1) .entry body path = some (t, rs)) :
    t = .timestamp ∨ (t = .value ∧ Superseded depth events i) ∨ ∀ r ∈ rs, t.Declares r := by
  have hfold : events.foldlM (EventMessage.apply depth) {} = some (.ofEvent e) := by
    rwa [EventMessage.parse, mergeMessage_of_readRecords hevents] at h
  obtain ⟨-, hrecords⟩ := EventMessage.declares_of_foldlM hfold rfl
  obtain ⟨entry, hentry, hknown⟩ := (hrecords _ (List.mem_of_getElem? hi)).2 body rfl
  obtain ⟨records, hbody, hentryfold⟩ := mergeMessage_eq_some_iff.mp hentry
  cases path with
  | nil =>
    obtain ⟨_, hrs, hfound⟩ := Option.map_eq_some_iff.mp hat
    cases hfound
    obtain rfl := Option.some.inj (hbody.symm.trans hrs)
    exact Or.inr (Or.inr (foldlM_backward (P := fun m => m.unknown = [])
      EntryMessage.declares_of_apply hentryfold hknown).2)
  | cons j path =>
    obtain ⟨_, r, ⟨t', body'⟩, hrs, hj, hpart, hinner⟩ := recordsAt_cons_eq_some_iff.mp hat
    obtain rfl := Option.some.inj (hbody.symm.trans hrs)
    obtain ⟨⟨⟩, -⟩ | ⟨⟨⟩, -⟩ | ⟨-, rfl, rfl⟩ | ⟨⟨⟩, -⟩ := MessageType.part?_eq_some hpart
    obtain rfl | ⟨rfl, hvalue⟩ := recordsAt_value hinner
    · exact Or.inl rfl
    · by_cases hsuperseded : Superseded depth events i
      · exact Or.inr (Or.inl ⟨rfl, hsuperseded⟩)
      · refine Or.inr (Or.inr ?_)
        -- the value in use is one of the event, which keeps nothing aside
        have hlookup := EventMessage.lookup_of_not_superseded hfold hi hsuperseded hentry hknown
        have hmem := (NameMap.lookup_eq_some_iff_mem
          (EventMessage.names_nodup_of_parse h)).mp hlookup
        have hclean : entry.value.unknown = [] := by
          obtain ⟨held, -, hheld⟩ := List.mem_map.mp hmem
          rw [← (Prod.mk.inj hheld).2]
        obtain ⟨-, hvalues⟩ := foldlM_backward (P := fun m => m.value.unknown = [])
          EntryMessage.value_declares_of_apply hentryfold hclean
        obtain ⟨rs', hrs', hdeclares⟩ := hvalues _ (List.mem_of_getElem? hj) body' rfl
        obtain rfl := Option.some.inj (hrs'.symm.trans hvalue)
        exact hdeclares

/-- **An undeclared field in accepted bytes stands at a place that is passed over.** -/
theorem passedOver_of_undeclared {bytes : Bytes} {e : Event}
    (h : EventMessage.parse maxDepth bytes = some (.ofEvent e)) {path : List Nat} {t : MessageType}
    {rs : List Record} (hat : recordsAt maxDepth .event bytes path = some (t, rs)) {r : Record}
    (hr : r ∈ rs) (hundeclared : ¬ t.Declares r) : PassedOver bytes path t := by
  cases path with
  | nil =>
    obtain ⟨_, hrs, hfound⟩ := Option.map_eq_some_iff.mp hat
    cases hfound
    obtain ⟨events, hevents, hfold⟩ := mergeMessage_eq_some_iff.mp h
    obtain rfl := Option.some.inj (hevents.symm.trans hrs)
    obtain ⟨-, hrecords⟩ := EventMessage.declares_of_foldlM hfold rfl
    exact absurd (hrecords r hr).1 hundeclared
  | cons i path =>
    obtain ⟨events, r', ⟨t', body⟩, hevents, hi, hpart, hinner⟩ :=
      recordsAt_cons_eq_some_iff.mp hat
    obtain ⟨-, rfl, rfl⟩ | ⟨-, rfl, rfl⟩ | ⟨⟨⟩, -⟩ | ⟨⟨⟩, -⟩ := MessageType.part?_eq_some hpart
    · obtain rfl | ⟨rfl, hsuperseded⟩ | hdeclares :=
        declares_of_recordsAt_entry h hevents hi hinner
      · trivial
      · exact ⟨events, i, hevents, rfl, hsuperseded⟩
      · exact absurd (hdeclares r hr) hundeclared
    · obtain rfl := type_of_recordsAt_leaf (Or.inr rfl) hinner
      trivial

end CloudEvents
