import CloudEvents.Proofs.RoundTrip

/-!
# Filling a message again

A message can be used more than once: `EventMessage.fill` takes any message, clears it and sets its
fields. The clearing is what this module is about, because the setting alone (`EventMessage.assign`)
is not enough. A field that an event does not have is not set, an entry of the attribute map is set
within the entry that is there, and nothing ever touches what a reader has kept aside.

What the assignments would leave behind is what `HoldsNothingBeside` rules out: fields kept aside,
in the message or in an entry, entries of other names, and a payload that the event does not have.
A message that holds none of these could do without the clearing, and no other one could.

## Main definitions

* `EventMessage.HoldsNothingBeside` — what a message may hold for the assignments to be enough

## Main results

* `EventMessage.lookup_assign` — what becomes of the entries of a message
* `EventMessage.toEvent_assign_iff` — when the assignments alone would do
* `EventMessage.fill_reused` — filling leaves nothing behind
-/

namespace CloudEvents

/-! ### Assignments -/

theorem AttributeMessage.assign_of_unknown {m : AttributeMessage} (h : m.unknown = [])
    (v : AttributeValue) : m.assign v = { value := some v } := by
  rw [assign, h]

namespace EventMessage

theorem nodup_assignEntries {held : NameMap AttributeMessage} (hheld : held.names.Nodup)
    {entries : NameMap AttributeValue} (h : entries.names.Nodup) :
    (assignEntries held entries).names.Nodup := by
  rw [assignEntries_eq_overriddenBy held h]
  exact (NameMap.overriddenBy_spec hheld _).1

/-- An entry of one of the names keeps what is kept aside in it, and all other entries stay. -/
theorem lookup_assignEntries (held : NameMap AttributeMessage) {entries : NameMap AttributeValue}
    (h : entries.names.Nodup) (name : String) :
    (assignEntries held entries).lookup name
      = ((entries.lookup name).map ((held.lookup name).getD {}).assign).or (held.lookup name) := by
  have hnames : NameMap.names (entries.map fun entry =>
      (entry.1, ((held.lookup entry.1).getD {}).assign entry.2)) = entries.names := by
    rw [NameMap.names, List.map_map]
    rfl
  rw [assignEntries_eq_overriddenBy held h, NameMap.lookup_overriddenBy held (hnames ▸ h),
    NameMap.lookup_map fun name v => ((held.lookup name).getD {}).assign v]

theorem lookup_assign (m : EventMessage) {e : Event} (h : e.attributes.names.Nodup)
    (name : String) :
    (m.assign e).attributes.lookup name
      = ((e.attributes.lookup name).map ((m.attributes.lookup name).getD {}).assign).or
          (m.attributes.lookup name) :=
  lookup_assignEntries m.attributes h name

theorem lookup_ofEvent (e : Event) (name : String) :
    (ofEvent e).attributes.lookup name
      = (e.attributes.lookup name).map fun v => { value := some v } :=
  NameMap.lookup_map (fun _ v => ({ value := some v } : AttributeMessage)) e.attributes name

/-- A message holds nothing but what setting the fields of the event sets. -/
structure HoldsNothingBeside (m : EventMessage) (e : Event) : Prop where
  unknown_eq_nil : m.unknown = []
  entry_set : ∀ name value, m.attributes.lookup name = some value →
    e.attributes.lookup name ≠ none ∧ value.unknown = []
  data_set : e.data = none → m.data = none

/-- In such a message the assignments leave the attributes of the event. -/
theorem HoldsNothingBeside.attributes_equiv {m : EventMessage} {e : Event}
    (h : m.HoldsNothingBeside e) (he : e.attributes.names.Nodup) :
    (m.assign e).attributes.Equiv (ofEvent e).attributes := by
  intro name
  rw [lookup_assign m he, lookup_ofEvent]
  cases hv : e.attributes.lookup name with
  | none =>
    refine Option.eq_none_iff_forall_ne_some.mpr fun value hvalue => ?_
    exact (h.entry_set name value hvalue).1 hv
  | some v =>
    cases hvalue : m.attributes.lookup name with
    | none => rfl
    | some value =>
      have hunknown := (h.entry_set name value hvalue).2
      exact congrArg some (AttributeMessage.assign_of_unknown hunknown v)

/-- **When the assignments alone would do.** The texts are always replaced, so what is asked of the
message concerns its entries, its payload and what it keeps aside. -/
theorem toEvent_assign_iff {m : EventMessage} (hm : m.attributes.names.Nodup) {e : Event}
    (he : e.Valid) :
    (∃ e', (m.assign e).toEvent = .ok e' ∧ e'.Same e) ↔ m.HoldsNothingBeside e := by
  constructor
  · rintro ⟨e', hok, hsame⟩
    obtain ⟨hassign, -⟩ := toEvent_eq_ok_iff.mp hok
    refine ⟨congrArg unknown hassign, ?_, ?_⟩
    · intro name value hvalue
      have hlookup := lookup_assign m he.names_nodup name
      rw [hassign, lookup_ofEvent, hsame.attributes_equiv name, hvalue] at hlookup
      cases hv : e.attributes.lookup name with
      | none =>
        rw [hv] at hlookup
        cases hlookup
      | some v =>
        rw [hv] at hlookup
        refine ⟨Option.some_ne_none v, ?_⟩
        exact (congrArg AttributeMessage.unknown (Option.some.inj hlookup)).symm
    · intro hnone
      have hdata : e.data.or m.data = e'.data := congrArg EventMessage.data hassign
      rwa [hsame.data_eq, hnone, Option.none_or] at hdata
  · intro h
    have hnodup : (m.assign e).attributes.names.Nodup := nodup_assignEntries hm he.names_nodup
    have hperm := NameMap.perm_of_equiv hnodup (names_ofEvent e ▸ he.names_nodup)
      (h.attributes_equiv he.names_nodup)
    obtain ⟨e', hmessage, hvalid, hsame⟩ := exists_ofEvent_of_perm he hperm
    have hdata : e.data.or m.data = e.data := by
      cases hnone : e.data with
      | none => exact h.data_set hnone
      | some d => rfl
    have hassign : m.assign e = ofEvent e' := by
      rw [← hmessage, assign, hdata, h.unknown_eq_nil]
      rfl
    exact ⟨e', (toEvent_eq_ok_iff_valid hnodup).mpr ⟨hassign, hvalid⟩, hsame⟩

/-- **Filling leaves nothing behind.** Filling a parsed message, whatever it holds, is clearing it
and setting the fields of the event. What comes out is written in canonical form like a message that
was filled when it was fresh, holds a payload of the same kind, keeps nothing aside, and is
interpreted as the event. Without the clearing this would be so only for a message that holds
nothing which the event does not set. -/
theorem fill_reused {depth : Nat} {bytes : Bytes} {m : EventMessage}
    (hm : parse depth bytes = some m) {e : Event} (he : e.Valid) :
    m.fill e = m.clear.assign e
    ∧ (m.fill e).canonical.encode = (({} : EventMessage).fill e).canonical.encode
    ∧ (m.fill e).data.map EventData.kind = (({} : EventMessage).fill e).data.map EventData.kind
    ∧ (m.fill e).unknown = [] ∧ (∀ entry ∈ (m.fill e).attributes, entry.2.unknown = [])
    ∧ (m.fill e).toEvent = .ok e
    ∧ ((∃ e', (m.assign e).toEvent = .ok e' ∧ e'.Same e) ↔ m.HoldsNothingBeside e) := by
  have hassign := toEvent_assign_iff (names_nodup_of_parse hm) he
  have hfresh : m.fill e = ({} : EventMessage).fill e := rfl
  have hnodup := names_ofEvent e ▸ he.names_nodup
  have hevent : (m.fill e).toEvent = .ok e := by
    rw [fill_eq_ofEvent he.names_nodup]
    exact (toEvent_eq_ok_iff_valid hnodup).mpr ⟨rfl, he⟩
  have hentries : ∀ entry ∈ (m.fill e).attributes, entry.2.unknown = [] := by
    rw [fill_eq_ofEvent he.names_nodup]
    exact List.forall_mem_map.mpr fun entry _ => rfl
  exact ⟨rfl, congrArg (·.canonical.encode) hfresh, congrArg (·.data.map EventData.kind) hfresh,
    rfl, hentries, hevent, hassign⟩

/-- A message with a text, two entries, a payload and fields kept aside in two places, filled with
an event that has one of the entries and no payload. -/
theorem fill_reused_stale :
    let m : EventMessage :=
      { id := "old"
        attributes := [("stale", { value := some (.string "x") }),
          ("n", { value := some (.integer 7), unknown := [⟨9, .varint 1⟩] })]
        data := some (.binary [1])
        unknown := [⟨9, .varint 1⟩] }
    let e : Event :=
      { id := "1", source := "/", specVersion := "1.0", type := "t"
        attributes := [("n", .integer 5)] }
    let bytes : Bytes :=
      [0x0A, 3, 0x6F, 0x6C, 0x64, 0x2A, 12, 0x0A, 5, 0x73, 0x74, 0x61, 0x6C, 0x65, 0x12, 3, 0x1A,
        1, 0x78, 0x2A, 9, 0x0A, 1, 0x6E, 0x12, 4, 0x10, 7, 0x48, 1, 0x32, 1, 1, 0x48, 1]
    parse maxDepth bytes = some m ∧ e.Valid
      ∧ (m.fill e).canonical.encode = (({} : EventMessage).fill e).canonical.encode
      ∧ (m.fill e).data.map EventData.kind = none ∧ (m.fill e).unknown = []
      ∧ (∀ entry ∈ (m.fill e).attributes, entry.2.unknown = [])
      ∧ (m.fill e).toEvent = .ok e ∧ ¬ ∃ e', (m.assign e).toEvent = .ok e' ∧ e'.Same e := by
  intro m e bytes
  have hm : parse maxDepth bytes = some m := by decide +kernel
  have he : e.Valid := by decide +kernel
  obtain ⟨-, hencode, hkind, hunknown, hentries, hevent, hassign⟩ := fill_reused hm he
  refine ⟨hm, he, hencode, hkind, hunknown, hentries, hevent, ?_⟩
  rw [hassign]
  exact fun h => absurd (h.data_set rfl) (Option.some_ne_none _)

end EventMessage

end CloudEvents
