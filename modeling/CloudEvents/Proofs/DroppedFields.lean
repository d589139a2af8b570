import CloudEvents.Proofs.UnknownFields
import CloudEvents.Proofs.Views

/-!
# Fields that are dropped

`passedOver_of_undeclared` says where undeclared fields in accepted bytes can stand. This module is
about what becomes of them there: nothing. Two byte strings that differ in the undeclared fields of
one such place, and nowhere else, decode to the same event.

The comparison goes from the inside out, through a view of what has been read so far
(`CloudEvents.Proofs.Views`). A timestamp and a typed message are seen whole, since neither keeps an
undeclared field. A value that is superseded is seen without what it keeps aside, and so is the
entry around it; the difference that remains is gone when the later entry takes its place.

## Main definitions

* `Replaced` — two byte strings that differ in one embedded message

## Main results

* `EventMessage.parse_of_replaced` — passed-over places do not show
* `Codec.strict_iff_of_decode` — which undeclared fields are refused, and which are dropped
-/

namespace CloudEvents

variable {depth : Nat}

/-! ### Messages that keep nothing aside -/

theorem Timestamp.apply_of_not_declares (t : Timestamp) {r : Record}
    (h : ¬ MessageType.timestamp.Declares r) : t.apply r = some t := by
  rw [Timestamp.apply]
  split
  case h_3 => rfl
  all_goals
    rename_i hnumber hpayload
    exact absurd (by simp [MessageType.Declares, MessageType.fields, Payload.wireType, hnumber,
      hpayload]) h

theorem StructuredData.apply_of_not_declares (s : StructuredData) {r : Record}
    (h : ¬ MessageType.typedMessage.Declares r) : s.apply r = some s := by
  rw [StructuredData.apply]
  split
  case h_3 => rfl
  all_goals
    rename_i hnumber hpayload
    exact absurd (by simp [MessageType.Declares, MessageType.fields, Payload.wireType, hnumber,
      hpayload]) h

/-! ### Values without what they keep aside -/

namespace AttributeMessage

theorem apply_of_not_declares (m : AttributeMessage) {r : Record}
    (h : ¬ MessageType.value.Declares r) :
    m.apply depth r = some { m with unknown := m.unknown ++ [r] } := by
  rw [AttributeMessage.apply]
  split
  case h_8 => rfl
  all_goals
    rename_i hnumber hpayload
    exact absurd (by simp [MessageType.Declares, Payload.wireType, hnumber, hpayload]) h

theorem actsOnView_value : ActsOnView (apply depth) AttributeMessage.value := by
  intro m m' r h
  have hheld : m.heldTimestamp = m'.heldTimestamp := by rw [heldTimestamp, heldTimestamp, h]
  unfold AttributeMessage.apply
  split
  case h_1 | h_2 | h_4 => rfl
  case h_8 => exact congrArg some h
  case h_7 => rw [hheld, Option.map_map, Option.map_map]; rfl
  all_goals
    rw [Option.map_map, Option.map_map]
    rfl

end AttributeMessage

namespace EntryMessage

/-- An entry without what its value keeps aside. -/
def seen (m : EntryMessage) : String × Option AttributeValue × List Record :=
  (m.key, m.value.value, m.unknown)

/-- A value is taken in without what it keeps aside. -/
theorem map_seen_apply_value (m : EntryMessage) (body : Bytes) :
    (m.apply depth ⟨2, .delimited body⟩).map seen
      = ((m.value.merge (depth - 1) body).map AttributeMessage.value).map
        fun value => (m.key, value, m.unknown) := by
  show ((m.value.merge (depth - 1) body).map fun value => { m with value }).map seen = _
  rw [Option.map_map, Option.map_map]
  rfl

theorem actsOnView_seen : ActsOnView (apply depth) seen := by
  intro m m' r h
  obtain ⟨hkey, hvalue, hunknown⟩ : m.key = m'.key ∧ m.value.value = m'.value.value
      ∧ m.unknown = m'.unknown := by simpa [seen] using h
  by_cases hr : ∃ body, r = ⟨2, .delimited body⟩
  · obtain ⟨body, rfl⟩ := hr
    have hmerge : (m.value.merge (depth - 1) body).map AttributeMessage.value
        = (m'.value.merge (depth - 1) body).map AttributeMessage.value :=
      mergeMessage_view_held AttributeMessage.actsOnView_value hvalue body
    rw [map_seen_apply_value, map_seen_apply_value, hmerge, hkey, hunknown]
  · unfold EntryMessage.apply
    split
    case h_1 =>
      rw [Option.map_map, Option.map_map]
      simp only [seen, Function.comp_def, hvalue, hunknown]
    case h_2 body hnumber hpayload => exact absurd ⟨body, by rw [← hnumber, ← hpayload]⟩ hr
    case h_3 => simp [seen, hkey, hvalue, hunknown]

end EntryMessage

/-! ### An entry that is superseded -/

namespace EventMessage

/-- An entry with nothing beside its key and value is written under its key. -/
theorem apply_entry (m : EventMessage) {body : Bytes} {entry : EntryMessage}
    (hentry : EntryMessage.parse (depth - 1) body = some entry) (hknown : entry.unknown = []) :
    m.apply depth ⟨5, .delimited body⟩
      = some { m with attributes := m.attributes.insert entry.key entry.value } := by
  show (EntryMessage.parse (depth - 1) body).map (m.addEntry _) = _
  rw [hentry, Option.map_some, addEntry, if_pos (List.isEmpty_iff.mpr hknown)]

/-- A record that writes no entry of a key leaves the value under that key as it is, whichever it
is. -/
theorem apply_insert {m m' : EventMessage} {r : Record} {key : String}
    (h : m.apply depth r = some m') (hother : entryKey? depth r ≠ some key)
    (hkey : key ∈ m.attributes.names) (value : AttributeMessage) :
    key ∈ m'.attributes.names
      ∧ { m with attributes := m.attributes.insert key value }.apply depth r
        = some { m' with attributes := m'.attributes.insert key value } := by
  rw [EventMessage.apply] at h ⊢
  split at h
  case h_5 body hnumber hpayload =>
    obtain ⟨entry, hentry, rfl⟩ := Option.map_eq_some_iff.mp h
    have hr : r = ⟨5, .delimited body⟩ := by rw [← hnumber, ← hpayload]
    have hne : key ≠ entry.key := by
      rintro rfl
      exact hother (hr ▸ entryKey?_of_parse hentry)
    simp only [hentry, Option.map_some, addEntry]
    by_cases hempty : entry.unknown.isEmpty
    · rw [if_pos hempty, if_pos hempty, NameMap.insert_comm hne hkey]
      refine ⟨?_, rfl⟩
      rw [NameMap.names_insert]
      split
      · exact hkey
      · exact List.mem_append_left _ hkey
    · rw [if_neg hempty, if_neg hempty]
      exact ⟨hkey, rfl⟩
  case h_6 | h_9 =>
    cases h
    exact ⟨hkey, rfl⟩
  all_goals
    obtain ⟨read, hread, rfl⟩ := Option.map_eq_some_iff.mp h
    exact ⟨hkey, Option.map_eq_some_iff.mpr ⟨read, hread, rfl⟩⟩

/-- Under a key that is written again later, it does not matter which value is there before. -/
theorem foldlM_insert_superseded {rs : List Record} {m m' : EventMessage} {key : String}
    (h : rs.foldlM (apply depth) m = some m') (hm' : m'.unknown = [])
    (hkey : key ∈ m.attributes.names) (hlater : ∃ r ∈ rs, entryKey? depth r = some key)
    (value : AttributeMessage) :
    rs.foldlM (apply depth) { m with attributes := m.attributes.insert key value } = some m' := by
  induction rs generalizing m with
  | nil =>
    obtain ⟨r, hr, -⟩ := hlater
    exact absurd hr List.not_mem_nil
  | cons r rest ih =>
    obtain ⟨next, hnext, hrest⟩ := Option.bind_eq_some_iff.mp h
    rw [List.foldlM_cons]
    by_cases hr : entryKey? depth r = some key
    · -- the later value replaces whatever is there
      obtain ⟨body, entry, rfl, hentry, rfl⟩ := entryKey?_eq_some hr
      obtain ⟨hnextunknown, -⟩ := declares_of_foldlM hrest hm'
      obtain ⟨-, -, hknown⟩ := declares_of_apply hnext hnextunknown
      obtain ⟨entry', hentry', hempty⟩ := hknown body rfl
      obtain rfl := Option.some.inj (hentry.symm.trans hentry')
      rw [apply_entry m hentry hempty] at hnext
      rw [apply_entry _ hentry hempty, NameMap.insert_insert, hnext]
      exact hrest
    · obtain ⟨hkeynext, happly⟩ := apply_insert hnext hr hkey value
      obtain ⟨r', hr', hwrites⟩ := hlater
      have hmem : r' ∈ rest := by
        refine (List.mem_cons.mp hr').resolve_left ?_
        rintro rfl
        exact hr hwrites
      rw [happly]
      exact ih hrest hkeynext ⟨r', hmem, hwrites⟩

end EventMessage

/-! ### One message in place of another -/

/-- The bodies of two messages of one type differ in one message inside, at the path: it has the
records `rs` in the one and `rs'` in the other. -/
inductive Replaced : (depth : Nat) → (t : MessageType) → (body body' : Bytes) →
    (path : List Nat) → (t' : MessageType) → (rs rs' : List Record) → Prop
  | here {depth : Nat} {t : MessageType} {body body' : Bytes} {rs rs' : List Record}
      (hrs : readRecords depth [] body = some rs) (hrs' : readRecords depth [] body' = some rs') :
      Replaced depth t body body' [] t rs rs'
  | inside {depth number : Nat} {t t' t'' : MessageType} {body body' part part' : Bytes}
      {front back rs rs' : List Record} {path : List Nat}
      (hrs : readRecords depth [] body = some (front ++ ⟨number, .delimited part⟩ :: back))
      (hrs' : readRecords depth [] body' = some (front ++ ⟨number, .delimited part'⟩ :: back))
      (ht : t.part? ⟨number, .delimited part⟩ = some (t', part))
      (hpart : Replaced (depth - 1) t' part part' path t'' rs rs') :
      Replaced depth t body body' (front.length :: path) t'' rs rs'

variable {t t' : MessageType} {body body' : Bytes} {path : List Nat} {rs rs' : List Record}

/-- The replaced message stands at the path in either body. -/
theorem Replaced.recordsAt_eq (h : Replaced depth t body body' path t' rs rs') :
    recordsAt depth t body path = some (t', rs)
      ∧ recordsAt depth t body' path = some (t', rs') := by
  induction h with
  | here hrs hrs' => exact ⟨by rw [recordsAt, hrs]; rfl, by rw [recordsAt, hrs']; rfl⟩
  | @inside depth number t t' t'' body body' part part' front back rs rs' path hrs hrs' ht _ ih =>
    have ht' : t.part? ⟨number, .delimited part'⟩ = some (t', part') := by
      obtain ⟨rfl, hr, rfl⟩ | ⟨rfl, hr, rfl⟩ | ⟨rfl, hr, rfl⟩ | ⟨rfl, hr, rfl⟩ :=
        MessageType.part?_eq_some ht <;> cases hr <;> rfl
    exact ⟨recordsAt_cons_eq_some_iff.mpr ⟨_, _, _, hrs, by simp, ht, ih.1⟩,
      recordsAt_cons_eq_some_iff.mpr ⟨_, _, _, hrs', by simp, ht', ih.2⟩⟩

/-- Timestamps and typed messages hold no further message that could be replaced. -/
theorem Replaced.eq_of_leaf (h : Replaced depth t body body' path t' rs rs')
    (ht : t = .timestamp ∨ t = .typedMessage) :
    t' = t ∧ readRecords depth [] body = some rs ∧ readRecords depth [] body' = some rs' := by
  cases h with
  | here hrs hrs' => exact ⟨rfl, hrs, hrs'⟩
  | inside _ _ hpart _ => obtain rfl | rfl := ht <;> cases hpart

theorem AttributeMessage.merge_of_replaced
    (h : Replaced depth .value body body' path .timestamp rs rs')
    (hsame : rs'.filter MessageType.timestamp.Declares = rs.filter MessageType.timestamp.Declares)
    (held : AttributeMessage) :
    AttributeMessage.merge depth held body' = AttributeMessage.merge depth held body := by
  cases h with
  | @inside _ number _ t' _ _ _ part part' front back _ _ _ hrs hrs' hpart hinner =>
    obtain ⟨⟨⟩, -⟩ | ⟨⟨⟩, -⟩ | ⟨⟨⟩, -⟩ | ⟨-, hr, rfl⟩ := MessageType.part?_eq_some hpart
    cases hr
    obtain ⟨-, htime, htime'⟩ := hinner.eq_of_leaf (Or.inl rfl)
    refine mergeMessage_replace (fun m => ?_) hrs hrs' held
    show (Timestamp.merge _ m.heldTimestamp part').map _ = (Timestamp.merge _ _ part).map _
    rw [Timestamp.merge, mergeMessage_congr Timestamp.apply_of_not_declares htime htime' hsame]
    rfl

/-- A message that is replaced inside an entry does not show outside the value of the entry, and a
timestamp does not show at all. -/
theorem EntryMessage.parse_of_replaced (h : Replaced depth .entry body body' path t rs rs')
    (ht : t ≠ .entry) (hsame : rs'.filter t.Declares = rs.filter t.Declares) :
    (EntryMessage.parse depth body').map seen = (EntryMessage.parse depth body).map seen
      ∧ (t = .value ∨ EntryMessage.parse depth body' = EntryMessage.parse depth body) := by
  cases h with
  | here => exact absurd rfl ht
  | @inside _ number _ t' _ _ _ part part' front back _ _ _ hrs hrs' hpart hinner =>
    obtain ⟨⟨⟩, -⟩ | ⟨⟨⟩, -⟩ | ⟨-, hr, rfl⟩ | ⟨⟨⟩, -⟩ := MessageType.part?_eq_some hpart
    cases hr
    obtain rfl | ⟨rfl, hvalue⟩ := recordsAt_value hinner.recordsAt_eq.1
    · have hparse : EntryMessage.parse depth body' = EntryMessage.parse depth body := by
        refine mergeMessage_replace (fun m => ?_) hrs hrs' _
        show (AttributeMessage.merge _ m.value part').map _
          = (AttributeMessage.merge _ _ part).map _
        rw [AttributeMessage.merge_of_replaced hinner hsame]
      exact ⟨congrArg (Option.map seen) hparse, Or.inr hparse⟩
    · obtain ⟨⟨⟩⟩ | ⟨-, hvalue'⟩ := recordsAt_value hinner.recordsAt_eq.2
      refine ⟨mergeMessage_view_replace actsOnView_seen (fun m => ?_) hrs hrs' _, Or.inl rfl⟩
      rw [map_seen_apply_value, map_seen_apply_value, AttributeMessage.merge,
        AttributeMessage.merge, mergeMessage_view_congr AttributeMessage.actsOnView_value ?_ hvalue
          hvalue' hsame]
      exact fun m r hr => by rw [m.apply_of_not_declares hr, Option.map_some]

/-! ### Events -/

namespace EventMessage

/-- An entry in place of another one of the same key, with the same value or one that is
superseded. -/
theorem parse_of_entry_replaced {m : EventMessage} {part part' : Bytes} {front back : List Record}
    (h : EventMessage.parse depth body = some m) (hm : m.unknown = [])
    (hrs : readRecords depth [] body = some (front ++ ⟨5, .delimited part⟩ :: back))
    (hrs' : readRecords depth [] body' = some (front ++ ⟨5, .delimited part'⟩ :: back))
    (hseen : (EntryMessage.parse (depth - 1) part').map EntryMessage.seen
      = (EntryMessage.parse (depth - 1) part).map EntryMessage.seen)
    (hvalue : EntryMessage.parse (depth - 1) part' = EntryMessage.parse (depth - 1) part
      ∨ ∃ key, entryKey? depth ⟨5, .delimited part⟩ = some key
        ∧ ∃ r ∈ back, entryKey? depth r = some key) :
    EventMessage.parse depth body' = some m := by
  have hfold : (front ++ ⟨5, .delimited part⟩ :: back).foldlM (apply depth) {} = some m := by
    rwa [EventMessage.parse, mergeMessage_of_readRecords hrs] at h
  rw [EventMessage.parse, mergeMessage_of_readRecords hrs']
  obtain ⟨before, after, hbefore, hafter, hback⟩ := foldlM_append_cons_eq_some_iff.mp hfold
  obtain ⟨hafterunknown, -⟩ := declares_of_foldlM hback hm
  obtain ⟨-, -, hknown⟩ := declares_of_apply hafter hafterunknown
  obtain ⟨entry, hentry, hempty⟩ := hknown part rfl
  rw [apply_entry before hentry hempty] at hafter
  cases hafter
  rw [hentry, Option.map_some] at hseen
  obtain ⟨entry', hentry', hsame⟩ := Option.map_eq_some_iff.mp hseen
  obtain ⟨hkey, -, hunknown⟩ : entry'.key = entry.key ∧ entry'.value.value = entry.value.value
      ∧ entry'.unknown = entry.unknown := by simpa [EntryMessage.seen] using hsame
  refine foldlM_append_cons_eq_some_iff.mpr
    ⟨before, _, hbefore, apply_entry before hentry' (hunknown.trans hempty), ?_⟩
  obtain hparse | ⟨key, hwrites, hlater⟩ := hvalue
  · obtain rfl : entry' = entry := by
      rw [hentry, hentry'] at hparse
      exact Option.some.inj hparse
    exact hback
  · obtain rfl : entry.key = key := Option.some.inj ((entryKey?_of_parse hentry).symm.trans hwrites)
    have hinsert := foldlM_insert_superseded hback hm ?_ hlater entry'.value
    · rwa [NameMap.insert_insert, ← hkey] at hinsert
    · rw [NameMap.names_insert]
      split
      · assumption
      · simp

/-- **What is passed over does not show.** A message at such a place may be replaced by any other
with the same declared fields. -/
theorem parse_of_replaced {m : EventMessage} {bytes bytes' : Bytes}
    (h : EventMessage.parse maxDepth bytes = some m) (hm : m.unknown = [])
    (hreplaced : Replaced maxDepth .event bytes bytes' path t rs rs')
    (hpassed : PassedOver bytes path t) (hsame : rs'.filter t.Declares = rs.filter t.Declares) :
    EventMessage.parse maxDepth bytes' = some m := by
  cases hreplaced with
  | here => exact hpassed.elim
  | @inside _ number _ t' _ _ _ part part' front back _ _ path hrs hrs' hpart hinner =>
    obtain ⟨-, hr, rfl⟩ | ⟨-, hr, rfl⟩ | ⟨⟨⟩, -⟩ | ⟨⟨⟩, -⟩ := MessageType.part?_eq_some hpart
    · cases hr
      have hentry : t ≠ .entry := by
        rintro rfl
        exact hpassed
      obtain ⟨hseen, hcases⟩ := EntryMessage.parse_of_replaced hinner hentry hsame
      refine parse_of_entry_replaced h hm hrs hrs' hseen ?_
      obtain rfl | hparse := hcases
      · obtain ⟨records, i, hrecords, hi, key, j, hij, hkey, hlater⟩ := hpassed
        obtain rfl := Option.some.inj (hrs.symm.trans hrecords)
        obtain rfl := Option.some.inj hi
        obtain ⟨r, hr, hrkey⟩ := Option.bind_eq_some_iff.mp hlater
        have hmem : r ∈ back := by
          obtain ⟨k, rfl⟩ := Nat.exists_eq_add_of_lt hij
          rw [List.getElem?_append_right (by omega), Nat.add_assoc, Nat.add_sub_cancel_left,
            List.getElem?_cons_succ] at hr
          exact List.mem_of_getElem? hr
        exact Or.inr ⟨key, by simpa using hkey, r, hmem, hrkey⟩
      · exact Or.inl hparse
    · cases hr
      obtain ⟨rfl, hdata, hdata'⟩ := hinner.eq_of_leaf (Or.inr rfl)
      rw [← h]
      refine mergeMessage_replace (fun m => ?_) hrs hrs' _
      show (StructuredData.merge _ m.heldStructured part').map _
        = (StructuredData.merge _ _ part).map _
      rw [StructuredData.merge,
        mergeMessage_congr StructuredData.apply_of_not_declares hdata hdata' hsame]
      rfl

end EventMessage

namespace Codec

/-- **Which undeclared fields are refused.** Accepted bytes carry nothing undeclared if there is
nothing undeclared in their timestamps, in their typed messages and in the values of superseded
entries, and an undeclared field at any other place would have been refused. At these places it is
dropped: with other undeclared fields there, or with none, the bytes decode to the same event. -/
theorem strict_iff_of_decode (c : Codec) {bytes : Bytes} {e : Event}
    (h : c.decode bytes = .ok e) :
    (Strict bytes ↔ ∀ path t rs, recordsAt maxDepth .event bytes path = some (t, rs) →
      PassedOver bytes path t → ∀ r ∈ rs, t.Declares r)
    ∧ ∀ path t rs rs' bytes', Replaced maxDepth .event bytes bytes' path t rs rs' →
      PassedOver bytes path t → rs'.filter t.Declares = rs.filter t.Declares →
      bytes'.length ≤ c.maxMessageSize →
      recordsAt maxDepth .event bytes' path = some (t, rs') ∧ c.decode bytes' = .ok e := by
  obtain ⟨-, hparse, hvalid⟩ := decode_eq_ok_iff.mp h
  constructor
  · constructor
    · exact fun hstrict path t rs hat _ => hstrict path t rs hat
    · intro hpassed path t rs hat r hr
      by_cases hdeclared : t.Declares r
      · exact hdeclared
      · exact hpassed path t rs hat (passedOver_of_undeclared hparse hat hr hdeclared) r hr
  · intro path t rs rs' bytes' hreplaced hpassed hsame hsize
    refine ⟨hreplaced.recordsAt_eq.2, decode_eq_ok_iff.mpr ⟨hsize, ?_, hvalid⟩⟩
    exact EventMessage.parse_of_replaced hparse rfl hreplaced hpassed hsame

end Codec

/-! ### A field that is dropped -/

/-- The body of an entry whose value is a timestamp with this body. -/
def timestampEntry (body : Bytes) : Bytes :=
  encodeRecords [⟨1, .delimited [0x61]⟩, ⟨2, .delimited (encodeRecords [⟨7, .delimited body⟩])⟩]

/-- An event with one attribute, a timestamp with this body. -/
def timestampEvent (body : Bytes) : Bytes :=
  encodeRecords
    [⟨1, .delimited [0x31]⟩, ⟨2, .delimited [0x73]⟩, ⟨3, .delimited [0x31]⟩,
     ⟨4, .delimited [0x74]⟩, ⟨5, .delimited (timestampEntry body)⟩]

namespace Codec

/-- Not all accepted bytes carry declared fields only: here a timestamp carries a third field. -/
theorem not_strict_of_decode : ¬ ∀ (c : Codec) (bytes : Bytes) (e : Event),
    c.decode bytes = .ok e → Strict bytes := by
  intro hall
  have hdecode : ({} : Codec).decode (timestampEvent [0x18, 0x01]) = .ok
      { id := "1", source := "s", specVersion := "1", type := "t"
        attributes := [("a", .timestamp { seconds := 0 })] } :=
    decode_eq_ok_iff.mpr (by decide +kernel)
  have hat : recordsAt maxDepth .event (timestampEvent [0x18, 0x01]) [4, 1, 0]
      = some (.timestamp, [⟨3, .varint 1⟩]) := by decide +kernel
  exact absurd (hall _ _ _ hdecode _ _ _ hat _ List.mem_cons_self) (by decide)

/-- With that field or without it, the bytes decode to the same event. -/
theorem strict_iff_of_decode_timestampEvent :
    let c : Codec := {}
    let e : Event :=
      { id := "1", source := "s", specVersion := "1", type := "t"
        attributes := [("a", .timestamp { seconds := 0 })] }
    c.decode (timestampEvent [0x18, 0x01]) = .ok e ∧ c.decode (timestampEvent []) = .ok e
      ∧ recordsAt maxDepth .event (timestampEvent []) [4, 1, 0] = some (.timestamp, []) := by
  intro c e
  have hdecode : c.decode (timestampEvent [0x18, 0x01]) = .ok e :=
    decode_eq_ok_iff.mpr (by decide +kernel)
  have hevent : ∀ body ∈ [[0x18, 0x01], []], readRecords maxDepth [] (timestampEvent body)
      = some ([⟨1, .delimited [0x31]⟩, ⟨2, .delimited [0x73]⟩, ⟨3, .delimited [0x31]⟩,
        ⟨4, .delimited [0x74]⟩] ++ ⟨5, .delimited (timestampEntry body)⟩ :: []) := by
    decide +kernel
  have hentry : ∀ body ∈ [[0x18, 0x01], []],
      readRecords (maxDepth - 1) [] (timestampEntry body)
        = some ([⟨1, .delimited [0x61]⟩]
          ++ ⟨2, .delimited (encodeRecords [⟨7, .delimited body⟩])⟩ :: []) := by
    decide +kernel
  have hvalue : ∀ body ∈ [[0x18, 0x01], []],
      readRecords (maxDepth - 1 - 1) [] (encodeRecords [⟨7, .delimited body⟩])
        = some ([] ++ ⟨7, .delimited body⟩ :: []) := by
    decide +kernel
  have hreplaced : Replaced maxDepth .event (timestampEvent [0x18, 0x01]) (timestampEvent [])
      [4, 1, 0] .timestamp [⟨3, .varint 1⟩] [] := by
    refine .inside (hevent _ (by decide)) (hevent _ (by decide)) rfl ?_
    refine .inside (hentry _ (by decide)) (hentry _ (by decide)) rfl ?_
    refine .inside (hvalue _ (by decide)) (hvalue _ (by decide)) rfl ?_
    exact .here (by decide +kernel) (by decide +kernel)
  obtain ⟨hat, hsame⟩ := (strict_iff_of_decode c hdecode).2 _ _ _ _ _ hreplaced trivial
    (by decide) (by decide +kernel)
  exact ⟨hdecode, hsame, hat⟩

end Codec

end CloudEvents
