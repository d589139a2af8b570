import CloudEvents.Proofs.DistinctForms
import CloudEvents.Proofs.RoundTrip

/-!
# Canonical encoding

A deterministic codec writes two valid events alike exactly when they are the same event, where the
order of attributes does not count. One direction is about sorting: entries with distinct names have
one sorted order, however they stood before. The other is that nothing is lost in writing. Sorting
makes of either event the message of a same event, and two different messages of valid events are
never written alike (`EventMessage.encode_ofEvent_injective`).

## Main results

* `EventMessage.sortEntries_eq_of_perm` — sorting forgets the order
* `Codec.message_eq_of_same` — the same event has the same message
* `Codec.encode_eq_iff_same` — encodings as identities of events
-/

namespace CloudEvents

/-! ### Sorted entries -/

/-- Sorted entries stand in order. -/
theorem EventMessage.pairwise_sortEntries {α : Type} (entries : NameMap α) :
    (sortEntries entries).Pairwise
      fun a b => Bytes.precedes (Bytes.ofText a.1) (Bytes.ofText b.1) = true := by
  let le (a b : String × α) : Bool := Bytes.precedes (Bytes.ofText a.1) (Bytes.ofText b.1)
  have htrans (a b c : String × α) : le a b = true → le b c = true → le a c = true :=
    Bytes.precedes_trans
  have htotal (a b : String × α) : (le a b || le b a) = true :=
    Bool.or_eq_true_iff.mpr (Bytes.precedes_total (Bytes.ofText a.1) (Bytes.ofText b.1))
  exact List.pairwise_mergeSort htrans htotal entries

/-- The entries of a map have one sorted order. Two of them that stand in either order have the same
name, and so are one. -/
theorem EventMessage.sortEntries_eq_of_perm {α : Type} {entries entries' : NameMap α}
    (hnodup : entries.names.Nodup) (hperm : entries.Perm entries') :
    sortEntries entries = sortEntries entries' := by
  have hsame : (sortEntries entries).Perm (sortEntries entries') :=
    ((List.mergeSort_perm entries _).trans hperm).trans (List.mergeSort_perm entries' _).symm
  refine List.Perm.eq_of_pairwise ?_ (pairwise_sortEntries entries)
    (pairwise_sortEntries entries') hsame
  intro a b ha hb hab hba
  have hname : a.1 = b.1 := Bytes.ofText_injective (Bytes.precedes_antisymm hab hba)
  have hain : a ∈ entries := List.mem_mergeSort.mp ha
  have hbin : b ∈ entries := hperm.mem_iff.mpr (List.mem_mergeSort.mp hb)
  exact List.inj_on_of_nodup_map hnodup hain hbin hname

namespace Codec

variable {c : Codec} {a b : Event}

/-- What a deterministic codec writes, as entries arranged by name. -/
theorem message_eq_arranged (hc : c.deterministic = true) (e : Event) :
    c.message e = (({} : EventMessage).fill e).arranged .byName := by
  rw [message, if_pos hc]
  rfl

theorem message_eq_of_same (hc : c.deterministic = true) (ha : a.Valid) (hb : b.Valid)
    (h : a.Same b) : c.message a = c.message b := by
  have hperm : (EventMessage.ofEvent a).attributes.Perm (EventMessage.ofEvent b).attributes :=
    (NameMap.perm_of_equiv ha.names_nodup hb.names_nodup h.attributes_equiv).map _
  have hnodup := EventMessage.names_ofEvent a ▸ ha.names_nodup
  have hsorted := EventMessage.sortEntries_eq_of_perm hnodup hperm
  have hid : a.id = b.id := h.required_eq .id
  have hsource : a.source = b.source := h.required_eq .source
  have hspec : a.specVersion = b.specVersion := h.required_eq .specVersion
  have htype : a.type = b.type := h.required_eq .type
  have hdata : a.data = b.data := h.data_eq
  rw [message_eq_arranged hc, message_eq_arranged hc, EventMessage.fill_eq_ofEvent ha.names_nodup,
    EventMessage.fill_eq_ofEvent hb.names_nodup]
  show EventMessage.canonical _ = EventMessage.canonical _
  rw [EventMessage.canonical, EventMessage.canonical, hsorted]
  simp only [EventMessage.ofEvent, hid, hsource, hspec, htype, hdata]

/-- Different events have different bytes, and an event has the same bytes in whatever order its
attributes were set. -/
theorem encode_message_eq_iff_same (hc : c.deterministic = true) (ha : a.Valid) (hb : b.Valid) :
    (c.message a).encode = (c.message b).encode ↔ a.Same b := by
  constructor
  · intro h
    obtain ⟨a', hmessage, ha', hsame⟩ := EntryOrder.byName.exists_arranged_eq ha
    obtain ⟨b', hmessage', hb', hsame'⟩ := EntryOrder.byName.exists_arranged_eq hb
    rw [message_eq_arranged hc, message_eq_arranged hc, hmessage, hmessage'] at h
    obtain rfl := EventMessage.encode_ofEvent_injective ha' hb' h
    exact hsame.symm.trans hsame'
  · intro h
    rw [message_eq_of_same hc ha hb h]

/-- **Encoding is canonical.** Under a deterministic codec that encodes both, two valid events have
the same encoding if and only if they are the same. -/
theorem encode_eq_iff_same (hc : c.deterministic = true) (ha : a.Valid) (hb : b.Valid)
    {bytes bytes' : Bytes} (hbytes : c.encode a = .ok bytes) (hbytes' : c.encode b = .ok bytes') :
    bytes = bytes' ↔ a.Same b := by
  obtain ⟨-, rfl⟩ := bounded_eq_ok_iff.mp hbytes
  obtain ⟨-, rfl⟩ := bounded_eq_ok_iff.mp hbytes'
  exact encode_message_eq_iff_same hc ha hb

/-- Attributes that stand in the order of their names are written as they stand. -/
theorem message_of_pairwise (c : Codec) {e : Event} (hnodup : e.attributes.names.Nodup)
    (hsorted : e.attributes.Pairwise
      fun a b => Bytes.precedes (Bytes.ofText a.1) (Bytes.ofText b.1) = true) :
    c.message e = .ofEvent e := by
  have hentries : EventMessage.sortEntries (EventMessage.ofEvent e).attributes
      = (EventMessage.ofEvent e).attributes :=
    List.mergeSort_of_pairwise (List.pairwise_map.mpr hsorted)
  rw [message, EventMessage.fill_eq_ofEvent hnodup]
  show (if c.deterministic = true then EventMessage.canonical _ else _) = _
  rw [EventMessage.canonical, hentries]
  exact ite_self _

/-- The order of two attributes does not show. The kind of a text, a truth value in the place of a
number, and an empty payload in the place of none do. -/
theorem encode_eq_iff_same_kinds :
    let c : Codec := {}
    let e (attributes : NameMap AttributeValue) (data : Option EventData) : Event :=
      { id := "1", source := "/", specVersion := "1.0", type := "t", attributes, data }
    let a := e [("x", .string "u"), ("y", .boolean false)] none
    ∃ bytes, c.encode a = .ok bytes
      ∧ c.encode (e [("y", .boolean false), ("x", .string "u")] none) = .ok bytes
      ∧ ∀ other ∈ [e [("x", .uri "u"), ("y", .boolean false)] none,
          e [("x", .uriRef "u"), ("y", .boolean false)] none,
          e [("x", .string "u"), ("y", .integer 0)] none,
          e [("x", .string "u"), ("y", .boolean false)] (some (.binary []))],
        ∃ bytes', c.encode other = .ok bytes' ∧ bytes ≠ bytes' := by
  intro c e a
  let b := e [("y", .boolean false), ("x", .string "u")] none
  have hencode {e' : Event} (hvalid : e'.Valid)
      (hsorted : e'.attributes.Pairwise
        fun a b => Bytes.precedes (Bytes.ofText a.1) (Bytes.ofText b.1) = true)
      (hsize : (EventMessage.ofEvent e').encode.length ≤ c.maxMessageSize) :
      c.encode e' = .ok (EventMessage.ofEvent e').encode := by
    rw [encode, message_of_pairwise c hvalid.names_nodup hsorted]
    exact bounded_eq_ok_iff.mpr ⟨hsize, rfl⟩
  have ha : a.Valid := by decide +kernel
  have hb : b.Valid := by decide +kernel
  have hsame : a.Same b := by decide +kernel
  have hbytes := hencode ha (by decide +kernel) (by decide +kernel)
  have hbytes' : c.encode b = .ok (c.message b).encode := by
    have hmessage : c.message a = c.message b := message_eq_of_same rfl ha hb hsame
    obtain ⟨hsize, -⟩ := bounded_eq_ok_iff.mp hbytes
    exact bounded_eq_ok_iff.mpr ⟨hmessage ▸ hsize, rfl⟩
  refine ⟨_, hbytes, ?_, fun other hother => ?_⟩
  · rw [(encode_eq_iff_same rfl ha hb hbytes hbytes').mpr hsame]
    exact hbytes'
  · have hall : ∀ other ∈ [e [("x", .uri "u"), ("y", .boolean false)] none,
          e [("x", .uriRef "u"), ("y", .boolean false)] none,
          e [("x", .string "u"), ("y", .integer 0)] none,
          e [("x", .string "u"), ("y", .boolean false)] (some (.binary []))],
        other.Valid ∧ other.attributes.Pairwise
            (fun a b => Bytes.precedes (Bytes.ofText a.1) (Bytes.ofText b.1) = true)
          ∧ (EventMessage.ofEvent other).encode.length ≤ c.maxMessageSize ∧ ¬ a.Same other := by
      decide +kernel
    obtain ⟨hvalid, hsorted, hsize, hdiffer⟩ := hall other hother
    have hother' := hencode hvalid hsorted hsize
    exact ⟨_, hother', fun heq =>
      hdiffer ((encode_eq_iff_same rfl ha hvalid hbytes hother').mp heq)⟩

end Codec

end CloudEvents
