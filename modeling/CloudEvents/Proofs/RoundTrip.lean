import CloudEvents.Proofs.Interpretation
import Mathlib.Data.List.Nodup
import Mathlib.Data.List.Perm.Basic

/-!
# The round trip of an event

What a codec writes of a valid event it reads back as the same event. The entries of the attribute
map are the one place where a writer has a choice, so the statement is about every order in which
they may be written and not only about the two that `Codec.message` knows.

An order acts on the entries of the message; `EventMessage.exists_ofEvent_of_perm` brings it back to
the attributes of the event. After that there is nothing to say about orders: the rearranged event
is an event like any other, written in its own order, and `EventMessage.parse_encode` reads it.

## Main definitions

* `EntryOrder` — what a serializer may do with the entries of a map
* `Codec.encodeInOrder` — encoding under any such order

## Main results

* `NameMap.equiv_of_perm`, `NameMap.perm_of_equiv` — maps do not depend on the order of their
  entries, and on nothing but their entries
* `EventMessage.exists_ofEvent_of_perm` — a message with its entries in another order
* `Codec.decode_encodeInOrder` — the round trip
-/

namespace CloudEvents

/-! ### Entries in any order -/

/-- Two lists of the same entries are the same map. -/
theorem NameMap.equiv_of_perm {α : Type} {m m' : NameMap α} (h : m.names.Nodup)
    (hperm : m.Perm m') : m.Equiv m' := by
  intro name
  have h' : m'.names.Nodup := (hperm.map Prod.fst).nodup_iff.mp h
  refine Option.ext fun value => ?_
  rw [lookup_eq_some_iff_mem h, lookup_eq_some_iff_mem h', hperm.mem_iff]

/-- Maps with distinct names are the same only if they have the same entries. -/
theorem NameMap.perm_of_equiv {α : Type} {m m' : NameMap α} (h : m.names.Nodup)
    (h' : m'.names.Nodup) (hequiv : m.Equiv m') : m.Perm m' := by
  have hnodup : m.Nodup := List.Nodup.of_map Prod.fst h
  have hnodup' : m'.Nodup := List.Nodup.of_map Prod.fst h'
  refine (List.perm_ext_iff_of_nodup hnodup hnodup').mpr ?_
  rintro ⟨name, value⟩
  rw [← lookup_eq_some_iff_mem h, ← lookup_eq_some_iff_mem h', hequiv name]

/-- An order in which a serializer writes the entries of a map. It may depend on the entries, but
leaves none out and repeats none. -/
structure EntryOrder where
  arrange : NameMap AttributeMessage → NameMap AttributeMessage
  perm : ∀ entries, (arrange entries).Perm entries

namespace EntryOrder

/-- The canonical order. -/
def byName : EntryOrder := ⟨EventMessage.sortEntries, fun entries => List.mergeSort_perm entries _⟩

/-- The order in which the attributes were set. -/
def asInserted : EntryOrder := ⟨fun entries => entries, fun entries => List.Perm.refl entries⟩

end EntryOrder

/-- The message with its entries in another order. -/
def EventMessage.arranged (m : EventMessage) (order : EntryOrder) : EventMessage :=
  { m with attributes := order.arrange m.attributes }

namespace Codec

/-- The order in which a codec writes entries. -/
def entryOrder (c : Codec) : EntryOrder := if c.deterministic then .byName else .asInserted

/-- The encoding of an event under an order of the serializer's own. -/
def encodeInOrder (c : Codec) (order : EntryOrder) (e : Event) : Except (List Violation) Bytes :=
  c.bounded ((({} : EventMessage).fill e).arranged order).encode

theorem encode_eq_encodeInOrder (c : Codec) (e : Event) :
    c.encode e = c.encodeInOrder c.entryOrder e := by
  rw [encode, message, encodeInOrder, entryOrder]
  cases c.deterministic <;> rfl

theorem bounded_eq_ok_iff {c : Codec} {bytes bytes' : Bytes} :
    c.bounded bytes = .ok bytes' ↔ bytes.length ≤ c.maxMessageSize ∧ bytes = bytes' := by
  rw [bounded]
  by_cases hsize : bytes.length ≤ c.maxMessageSize <;> simp [hsize]

theorem bounded_eq_error_iff {c : Codec} {bytes : Bytes} {violations : List Violation} :
    c.bounded bytes = .error violations
      ↔ c.maxMessageSize < bytes.length
        ∧ violations = [.encodedSize bytes.length c.maxMessageSize] := by
  rw [bounded]
  by_cases hsize : bytes.length ≤ c.maxMessageSize
  · simp [hsize, Nat.not_lt.mpr hsize]
  · simp [hsize, Nat.not_le.mp hsize, eq_comm]

end Codec

/-! ### The round trip -/

/-- Some of the attributes of an event, each once, with any payload or none, make an event that
breaks no rule either. -/
theorem Event.Valid.of_subset {e : Event} (h : e.Valid) {entries : NameMap AttributeValue}
    (hnodup : entries.names.Nodup) (hsub : ∀ entry ∈ entries, entry ∈ e.attributes)
    (data : Option EventData) : { e with attributes := entries, data }.Valid := by
  have hnames : ∀ name ∈ entries.names, name ∈ e.attributes.names := by
    intro name hm
    obtain ⟨entry, hentry, rfl⟩ := List.mem_map.mp hm
    exact List.mem_map_of_mem (hsub entry hentry)
  exact
    { required_ne_empty := h.required_ne_empty
      names_nodup := hnodup
      name_ne_empty := fun name hm => h.name_ne_empty name (hnames name hm)
      name_not_reserved := fun name hm => h.name_not_reserved name (hnames name hm)
      value_valid := fun entry hm => h.value_valid entry (hsub entry hm) }

/-! An event with its attributes in another order is the same event. -/

theorem Event.valid_of_perm {e : Event} (h : e.Valid) {entries : NameMap AttributeValue}
    (hperm : entries.Perm e.attributes) : { e with attributes := entries }.Valid :=
  h.of_subset ((hperm.map Prod.fst).nodup_iff.mpr h.names_nodup)
    (fun _ hm => hperm.mem_iff.mp hm) e.data

theorem Event.same_of_perm {e : Event} (h : e.attributes.names.Nodup)
    {entries : NameMap AttributeValue} (hperm : entries.Perm e.attributes) :
    { e with attributes := entries }.Same e where
  required_eq f := by cases f <;> rfl
  attributes_equiv := NameMap.equiv_of_perm ((hperm.map Prod.fst).nodup_iff.mpr h) hperm
  data_eq := rfl

/-- The message of an event with its entries in another order is the message of the same event, its
attributes in that order. -/
theorem EventMessage.exists_ofEvent_of_perm {e : Event} (h : e.Valid)
    {entries : NameMap AttributeMessage} (hentries : entries.Perm (ofEvent e).attributes) :
    ∃ e' : Event, { ofEvent e with attributes := entries } = ofEvent e' ∧ e'.Valid
      ∧ e'.Same e := by
  obtain ⟨attributes, rfl, hperm⟩ : ∃ attributes : NameMap AttributeValue,
      entries = attributes.map (fun entry => (entry.1, { value := some entry.2 }))
      ∧ attributes.Perm e.attributes :=
    (congrFun₂ (List.eq_map_comp_perm _) _ _).mpr hentries
  exact ⟨{ e with attributes }, rfl, Event.valid_of_perm h hperm,
    Event.same_of_perm h.names_nodup hperm⟩

/-- An order of the entries of an event's message is an order of the event's attributes. -/
theorem EntryOrder.exists_arranged_eq (order : EntryOrder) {e : Event} (h : e.Valid) :
    ∃ e' : Event, (({} : EventMessage).fill e).arranged order = .ofEvent e' ∧ e'.Valid
      ∧ e'.Same e := by
  rw [EventMessage.fill_eq_ofEvent h.names_nodup]
  exact EventMessage.exists_ofEvent_of_perm h (order.perm _)

/-- **The round trip.** Encoding a valid event fails exactly when the encoding is longer than the
codec allows, whatever order the entries are written in, and fails with that report alone. What it
returns is read back as the same event, as long as the encoding stays below 2 GiB, which is where
the wire format itself ends. -/
theorem Codec.decode_encodeInOrder (c : Codec) {e : Event} (h : e.Valid) :
    c.encode e = c.encodeInOrder c.entryOrder e ∧ ∀ order : EntryOrder,
      let size := ((({} : EventMessage).fill e).arranged order).encode.length
      (∀ violations, c.encodeInOrder order e = .error violations
        ↔ c.maxMessageSize < size ∧ violations = [.encodedSize size c.maxMessageSize])
      ∧ (size ≤ maxLength → ∀ bytes, c.encodeInOrder order e = .ok bytes →
        ∃ e', c.decode bytes = .ok e' ∧ e'.Same e) := by
  refine ⟨encode_eq_encodeInOrder c e, fun order => ⟨fun violations => bounded_eq_error_iff, ?_⟩⟩
  intro hsize bytes hbytes
  obtain ⟨hle, rfl⟩ := bounded_eq_ok_iff.mp hbytes
  obtain ⟨e', hmessage, hvalid, hsame⟩ := order.exists_arranged_eq h
  rw [hmessage] at hsize hle ⊢
  refine ⟨e', decode_eq_ok_iff.mpr ⟨hle, ?_, hvalid⟩, hsame⟩
  exact EventMessage.parse_encode hvalid.names_nodup hvalid.value_valid hsize

end CloudEvents
