import CloudEvents.Proofs.RoundTrip
import CloudEvents.Proofs.Segments
import CloudEvents.Proofs.UnknownFields
import CloudEvents.Proofs.Views

/-!
# The order of fields

A writer may put the fields of an event in any order, may write a field more than once, and may
write the members of the payload one after the other. Reading keeps the last text of a required
attribute, the last entry of a key, and of the payload the last member, into which an earlier one of
the same kind may have been merged. So the order counts among the records that write the same part
of the event, and only there.

Such a part is a `Slot`. What is held in a slot is a view of the message on which records act
(`actsOnView_held`), and the records of all other slots leave it alone (`held_of_apply`). A message
read from accepted bytes is therefore determined slot by slot, each by its own records in their
order, and no two records have to be exchanged one at a time.

What acceptance asks of a record does not depend on the other records either. A typed message is the
one place where a record is merged into what is held, and there too the text that may be refused is
the text of the record.

## Main definitions

* `Slot`, `Record.slot?` — the parts of an event, and the one that a record writes
* `Reordered` — segments in another order that keeps the order within each slot

## Main results

* `EventMessage.actsOnView_held`, `EventMessage.held_of_apply`
* `Codec.decode_of_reordered` — the order across slots does not count
-/

namespace CloudEvents

variable {depth : Nat}

/-! ### Slots -/

/-- A part of an event that records write: a required attribute, the entry of a key, or the
payload. -/
inductive Slot where
  | required (field : RequiredField)
  | entry (key : String)
  | data
  deriving DecidableEq

/-- The slot that a record of an event writes. The three fields of the payload share theirs. -/
def Record.slot? (depth : Nat) (r : Record) : Option Slot :=
  match r.number with
  | 1 => some (.required .id)
  | 2 => some (.required .source)
  | 3 => some (.required .specVersion)
  | 4 => some (.required .type)
  | 6 | 7 | 8 => some .data
  | _ => (entryKey? depth r).map .entry

/-- What a slot may hold. -/
def Slot.Content : Slot → Type
  | required _ => String
  | entry _ => Option AttributeMessage
  | data => Option EventData

/-- What a message holds in a slot. -/
def EventMessage.held (m : EventMessage) : (slot : Slot) → slot.Content
  | .required field => m.required field
  | .entry key => m.attributes.lookup key
  | .data => m.data

/-- The same segments, in an order that is the old one among the segments of each slot. -/
structure Reordered (segments segments' : List Segment) : Prop where
  perm : segments'.Perm segments
  filter_eq : ∀ slot, segments'.filter (fun s => s.record.slot? maxDepth = some slot)
    = segments.filter (fun s => s.record.slot? maxDepth = some slot)

/-! ### Acceptance -/

/-- Whether a body is accepted does not depend on the typed message it is merged into. -/
theorem StructuredData.map_const_merge {β : Type} (b : β) (s s' : StructuredData) (body : Bytes) :
    (s.merge depth body).map (fun _ => b) = (s'.merge depth body).map fun _ => b := by
  have hview : ActsOnView StructuredData.apply fun _ => b := by
    intro t t' r _
    unfold StructuredData.apply
    split
    case h_1 =>
      rw [Option.map_map, Option.map_map]
      rfl
    all_goals rfl
  exact mergeMessage_view_held hview rfl body

namespace EventMessage

/-- Whether a record is accepted does not depend on the message it is applied to. -/
theorem map_const_apply {β : Type} (b : β) (m m' : EventMessage) (r : Record) :
    (m.apply depth r).map (fun _ => b) = (m'.apply depth r).map fun _ => b := by
  unfold EventMessage.apply
  split
  case h_6 | h_9 => rfl
  case h_8 body _ _ =>
    rw [Option.map_map, Option.map_map]
    exact StructuredData.map_const_merge b m.heldStructured m'.heldStructured body
  all_goals
    rw [Option.map_map, Option.map_map]
    rfl

/-- A record that is accepted once, and not kept aside, is accepted always and never kept aside. -/
theorem map_unknown_apply {m m' : EventMessage} {r : Record} (h : m.apply depth r = some m')
    (hm' : m'.unknown = []) (other : EventMessage) :
    (other.apply depth r).map EventMessage.unknown = some other.unknown := by
  rw [EventMessage.apply] at h ⊢
  split at h
  case h_5 =>
    obtain ⟨entry, hentry, rfl⟩ := Option.map_eq_some_iff.mp h
    rw [addEntry] at hm'
    split at hm'
    · rename_i hempty
      rw [hentry, Option.map_some, addEntry, if_pos hempty]
      rfl
    · exact absurd hm' (List.append_ne_nil_of_right_ne_nil _ (List.cons_ne_nil r []))
  case h_6 => rfl
  case h_8 body _ _ =>
    obtain ⟨s, hs, -⟩ := Option.map_eq_some_iff.mp h
    have hmerge : (other.heldStructured.merge (depth - 1) body).map (fun _ => other.unknown)
        = some other.unknown := by
      rw [StructuredData.map_const_merge other.unknown other.heldStructured m.heldStructured body,
        hs]
      rfl
    rw [Option.map_map]
    exact hmerge
  case h_9 =>
    cases h
    exact absurd hm' (List.append_ne_nil_of_right_ne_nil _ (List.cons_ne_nil r []))
  all_goals
    obtain ⟨text, htext, -⟩ := Option.map_eq_some_iff.mp h
    rw [htext]
    rfl

theorem map_unknown_of_foldlM {rs : List Record} {m m' : EventMessage}
    (h : rs.foldlM (apply depth) m = some m') (hm' : m'.unknown = []) :
    ∀ r ∈ rs, ∀ other : EventMessage,
      (other.apply depth r).map EventMessage.unknown = some other.unknown := by
  refine (foldlM_backward (P := fun m => m.unknown = []) ?_ h hm').2
  intro a a' r hr ha'
  exact ⟨(declares_of_apply hr ha').1, map_unknown_apply hr ha'⟩

/-! ### What a record does to a slot -/

/-- A record leaves the slots of other records as they are. -/
theorem held_of_apply {m m' : EventMessage} {r : Record} {slot : Slot}
    (h : m.apply depth r = some m') (hslot : r.slot? depth ≠ some slot) :
    m'.held slot = m.held slot := by
  cases slot with
  | entry key =>
    refine lookup_of_apply h fun hkey => hslot ?_
    obtain ⟨body, entry, rfl, -, -⟩ := entryKey?_eq_some hkey
    exact congrArg (Option.map Slot.entry) hkey
  | required field =>
    rw [EventMessage.apply] at h
    split at h
    case h_5 =>
      obtain ⟨entry, -, rfl⟩ := Option.map_eq_some_iff.mp h
      rw [addEntry]
      split <;> rfl
    case h_6 | h_9 =>
      cases h
      rfl
    case h_7 | h_8 =>
      obtain ⟨_, -, rfl⟩ := Option.map_eq_some_iff.mp h
      rfl
    all_goals
      rename_i hnumber _
      obtain ⟨text, -, rfl⟩ := Option.map_eq_some_iff.mp h
      cases field <;> first
        | rfl
        | exact absurd (by simp [Record.slot?, hnumber]) hslot
  | data =>
    rw [EventMessage.apply] at h
    split at h
    case h_5 =>
      obtain ⟨entry, -, rfl⟩ := Option.map_eq_some_iff.mp h
      rw [addEntry]
      split <;> rfl
    case h_9 =>
      cases h
      rfl
    case h_6 hnumber _ | h_7 hnumber _ | h_8 hnumber _ =>
      exact absurd (by simp [Record.slot?, hnumber]) hslot
    all_goals
      obtain ⟨text, -, rfl⟩ := Option.map_eq_some_iff.mp h
      rfl

/-- What a record puts into a slot depends on what the slot held, and on nothing else. -/
theorem actsOnView_held (slot : Slot) :
    ActsOnView (apply depth) fun m => m.held slot := by
  intro m m' r h
  have h : m.held slot = m'.held slot := h
  by_cases hslot : r.slot? depth = some slot
  · unfold EventMessage.apply
    split
    case h_5 hnumber _ =>
      obtain ⟨key, -, rfl⟩ : ∃ key, entryKey? depth r = some key ∧ Slot.entry key = slot := by
        simpa [Record.slot?, hnumber] using hslot
      have hlookup : m.attributes.lookup key = m'.attributes.lookup key := h
      rw [Option.map_map, Option.map_map]
      refine congrArg (Option.map · _) (funext fun entry => ?_)
      show (m.addEntry r entry).attributes.lookup key = (m'.addEntry r entry).attributes.lookup key
      rw [addEntry, addEntry]
      split
      · rw [NameMap.lookup_insert, NameMap.lookup_insert, hlookup]
      · exact hlookup
    case h_6 hnumber _ =>
      obtain rfl : Slot.data = slot := by simpa [Record.slot?, hnumber] using hslot
      rfl
    case h_8 hnumber _ =>
      obtain rfl : Slot.data = slot := by simpa [Record.slot?, hnumber] using hslot
      have hheld : m.heldStructured = m'.heldStructured := by
        have hdata : m.data = m'.data := h
        rw [heldStructured, heldStructured, hdata]
      rw [hheld, Option.map_map, Option.map_map]
      rfl
    case h_9 =>
      cases slot with
      | required field => cases field <;> exact congrArg some h
      | entry key => exact congrArg some h
      | data => exact congrArg some h
    all_goals
      rename_i hnumber _
      simp only [Record.slot?, hnumber, Option.some.injEq] at hslot
      subst hslot
      rw [Option.map_map, Option.map_map]
      rfl
  · have hkeep (a : EventMessage) : (a.apply depth r).map (fun m => m.held slot)
        = (a.apply depth r).map fun _ => a.held slot :=
      Option.map_congr fun a' ha' => held_of_apply ha' hslot
    rw [hkeep m, hkeep m', h]
    exact map_const_apply _ m m' r

/-! ### Messages, slot by slot -/

/-- Records in another order that keeps the order within each slot are accepted as well, and leave
the same in every slot. -/
theorem exists_foldlM_of_reordered {rs rs' : List Record} {m : EventMessage}
    (h : rs.foldlM (apply depth) {} = some m) (hm : m.unknown = []) (hperm : rs'.Perm rs)
    (hfilter : ∀ slot, rs'.filter (fun r => r.slot? depth = some slot)
      = rs.filter (fun r => r.slot? depth = some slot)) :
    ∃ m', rs'.foldlM (apply depth) {} = some m' ∧ m'.unknown = []
      ∧ ∀ slot, m'.held slot = m.held slot := by
  have hkeep := map_unknown_of_foldlM h hm
  have hskip (slot : Slot) : ∀ r ∈ rs, ¬ r.slot? depth = some slot → ∀ a : EventMessage,
      (a.apply depth r).map (fun m => m.held slot) = some (a.held slot) := by
    intro r hr hslot a
    obtain ⟨a', ha', -⟩ := Option.map_eq_some_iff.mp (hkeep r hr a)
    rw [ha']
    exact congrArg some (held_of_apply ha' hslot)
  obtain ⟨m', hm', hunknown⟩ := Option.map_eq_some_iff.mp
    (foldlM_view_eq (fun r hr => hkeep r (hperm.mem_iff.mp hr)) ({} : EventMessage))
  refine ⟨m', hm', hunknown, fun slot => ?_⟩
  have hview := foldlM_view_filter (actsOnView_held slot) (hskip slot) {}
  have hview' := foldlM_view_filter (actsOnView_held slot)
    (fun r hr => hskip slot r (hperm.mem_iff.mp hr)) {}
  rw [hfilter slot, ← hview, hm', h] at hview'
  exact Option.some.inj hview'

/-- A message that holds in every slot what the message of an event holds, and nothing aside,
differs from it in the order of its entries at most. -/
theorem eq_ofEvent_of_held {m : EventMessage} {e : Event} (hunknown : m.unknown = [])
    (h : ∀ slot, m.held slot = (ofEvent e).held slot) :
    m = { ofEvent e with attributes := m.attributes } := by
  have hid : m.id = e.id := h (.required .id)
  have hsource : m.source = e.source := h (.required .source)
  have hspec : m.specVersion = e.specVersion := h (.required .specVersion)
  have htype : m.type = e.type := h (.required .type)
  have hdata : m.data = e.data := h .data
  obtain ⟨id, source, specVersion, type, attributes, data, unknown⟩ := m
  subst hid hsource hspec htype hdata hunknown
  rfl

end EventMessage

/-- **The order of fields does not count** across slots. Accepted bytes are made of segments in one
way, and with the segments in any order that keeps the order within each slot they decode to the
same event. -/
theorem Codec.decode_of_reordered (c : Codec) {bytes : Bytes} {e : Event}
    (h : c.decode bytes = .ok e) :
    (∃! segments, Segment.join segments = bytes)
      ∧ ∀ segments segments', Segment.join segments = bytes → Reordered segments segments' →
        ∃ e', c.decode (Segment.join segments') = .ok e' ∧ e'.Same e := by
  obtain ⟨hsize, hparse, hvalid⟩ := decode_eq_ok_iff.mp h
  obtain ⟨rs, hrs, -⟩ := mergeMessage_eq_some_iff.mp hparse
  refine ⟨Segment.existsUnique_join_eq hrs, ?_⟩
  rintro segments segments' rfl hreordered
  rw [EventMessage.parse, mergeMessage_of_readRecords (Segment.readRecords_join segments)] at hparse
  have hfilter (slot : Slot) :
      (segments'.map Segment.record).filter (fun r => r.slot? maxDepth = some slot)
        = (segments.map Segment.record).filter (fun r => r.slot? maxDepth = some slot) := by
    rw [List.filter_map, List.filter_map]
    exact congrArg (List.map Segment.record) (hreordered.filter_eq slot)
  obtain ⟨m', hfold, hunknown, hheld⟩ :=
    EventMessage.exists_foldlM_of_reordered hparse rfl (hreordered.perm.map _) hfilter
  have hparse' : EventMessage.parse maxDepth (Segment.join segments') = some m' := by
    rw [EventMessage.parse, mergeMessage_of_readRecords (Segment.readRecords_join segments'), hfold]
  have hentries : m'.attributes.Perm (EventMessage.ofEvent e).attributes := by
    have hnodup := EventMessage.names_ofEvent e ▸ hvalid.names_nodup
    exact NameMap.perm_of_equiv (EventMessage.names_nodup_of_parse hparse') hnodup
      fun key => hheld (.entry key)
  obtain ⟨e', he', hvalid', hsame⟩ := EventMessage.exists_ofEvent_of_perm hvalid hentries
  have hlength : (Segment.join segments').length = (Segment.join segments).length :=
    (hreordered.perm.flatMap_right Segment.bytes).length_eq
  refine ⟨e', decode_eq_ok_iff.mpr ⟨hlength ▸ hsize, ?_, hvalid'⟩, hsame⟩
  rw [hparse', EventMessage.eq_ofEvent_of_held hunknown hheld, he']

/-! ### Blocks of segments -/

/-- Blocks of segments that have no slot in common can be exchanged. -/
theorem Reordered.exchange {front back : List Segment}
    (h : ∀ s ∈ front, ∀ s' ∈ back, s.record.slot? maxDepth ≠ s'.record.slot? maxDepth) :
    Reordered (front ++ back) (back ++ front) where
  perm := List.perm_append_comm
  filter_eq slot := by
    rw [List.filter_append, List.filter_append]
    by_cases hslot : ∃ s ∈ front, s.record.slot? maxDepth = some slot
    · obtain ⟨s, hs, hfront⟩ := hslot
      have hback : back.filter (fun s' => s'.record.slot? maxDepth = some slot) = [] := by
        rw [List.filter_eq_nil_iff]
        intro s' hs' hsame
        exact h s hs s' hs' (hfront.trans (of_decide_eq_true hsame).symm)
      rw [hback, List.nil_append, List.append_nil]
    · have hfront : front.filter (fun s => s.record.slot? maxDepth = some slot) = [] := by
        rw [List.filter_eq_nil_iff]
        exact fun s hs hsame => hslot ⟨s, hs, of_decide_eq_true hsame⟩
      rw [hfront, List.nil_append, List.append_nil]

/-- An id that is written twice, once behind a padded tag, and then a payload in two parts and an
attribute that is set twice: the second block may come first. -/
theorem Codec.decode_of_reordered_blocks :
    let c : Codec := {}
    let e : Event :=
      { id := "1", source := "s", specVersion := "1", type := "t"
        attributes := [("a", .boolean true)]
        data := some (.structured { typeUrl := "u", value := [0x07] }) }
    let front : List Segment :=
      [⟨[0x0A, 0x01, 0x78], ⟨1, .delimited [0x78]⟩, by decide +kernel⟩,
       ⟨[0x8A, 0x00, 0x01, 0x31], ⟨1, .delimited [0x31]⟩, by decide +kernel⟩,
       ⟨[0x12, 0x01, 0x73], ⟨2, .delimited [0x73]⟩, by decide +kernel⟩,
       ⟨[0x1A, 0x01, 0x31], ⟨3, .delimited [0x31]⟩, by decide +kernel⟩,
       ⟨[0x22, 0x01, 0x74], ⟨4, .delimited [0x74]⟩, by decide +kernel⟩]
    let back : List Segment :=
      [⟨[0x42, 0x03, 0x0A, 0x01, 0x75], ⟨8, .delimited [0x0A, 0x01, 0x75]⟩, by decide +kernel⟩,
       ⟨[0x2A, 0x07, 0x0A, 0x01, 0x61, 0x12, 0x02, 0x08, 0x00],
        ⟨5, .delimited [0x0A, 0x01, 0x61, 0x12, 0x02, 0x08, 0x00]⟩, by decide +kernel⟩,
       ⟨[0x42, 0x03, 0x12, 0x01, 0x07], ⟨8, .delimited [0x12, 0x01, 0x07]⟩, by decide +kernel⟩,
       ⟨[0x2A, 0x07, 0x0A, 0x01, 0x61, 0x12, 0x02, 0x08, 0x01],
        ⟨5, .delimited [0x0A, 0x01, 0x61, 0x12, 0x02, 0x08, 0x01]⟩, by decide +kernel⟩]
    c.decode (Segment.join (front ++ back)) = .ok e ∧ Reordered (front ++ back) (back ++ front)
      ∧ ∃ e', c.decode (Segment.join (back ++ front)) = .ok e' ∧ e'.Same e := by
  intro c e front back
  have hdecode : c.decode (Segment.join (front ++ back)) = .ok e :=
    decode_eq_ok_iff.mpr (by decide +kernel)
  have hreordered : Reordered (front ++ back) (back ++ front) :=
    .exchange (by decide +kernel)
  exact ⟨hdecode, hreordered, (decode_of_reordered c hdecode).2 _ _ rfl hreordered⟩

end CloudEvents
