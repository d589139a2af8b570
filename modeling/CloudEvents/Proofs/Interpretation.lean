import CloudEvents.Codec
import CloudEvents.Proofs.WrittenForms

/-!
# Interpreting messages

Between a message and an event stand many checks, in a fixed order. On acceptance the order does
not show: a message is accepted exactly when it is the message of a valid event and of nothing else.
That one equivalence replaces the checks wherever only acceptance matters, and `Codec.decode` is
characterised by it.

## Main results

* `Event.valid_iff` — the rules that are checked, and what the types of the parts leave to check
* `EventMessage.toEvent_eq_ok_iff` — accepted messages are the messages of valid events
* `BatchMessage.toBatch_eq` — a batch is interpreted event by event
* `Codec.decode_eq_ok_iff` — accepted bytes
-/

namespace CloudEvents

/-! ### Results in order -/

theorem bind_eq_ok_iff {α β ε : Type} {first : Except ε α} {next : α → Except ε β} {b : β} :
    (first >>= next) = .ok b ↔ ∃ a, first = .ok a ∧ next a = .ok b := by
  cases first <;> simp [bind, Except.bind]

theorem pure_eq_ok_iff {α ε : Type} {a b : α} : (pure a : Except ε α) = .ok b ↔ a = b :=
  ⟨Except.ok.inj, congrArg Except.ok⟩

theorem mapM_cons_eq_ok_iff {α β ε : Type} {f : α → Except ε β} {a : α} {l : List α}
    {results : List β} : (a :: l).mapM f = .ok results
      ↔ ∃ b tail, f a = .ok b ∧ l.mapM f = .ok tail ∧ results = b :: tail := by
  simp only [List.mapM_cons, bind_eq_ok_iff, pure_eq_ok_iff]
  constructor
  · rintro ⟨b, hb, tail, htail, rfl⟩
    exact ⟨b, tail, hb, htail, rfl⟩
  · rintro ⟨b, tail, hb, htail, rfl⟩
    exact ⟨b, hb, tail, htail, rfl⟩

theorem map_eq_ok_iff {α β ε : Type} {f : α → β} {result : Except ε α} {b : β} :
    result.map f = .ok b ↔ ∃ a, result = .ok a ∧ f a = b := by
  cases result <;> simp [Except.map]

theorem map_eq_error_iff {α β ε : Type} {f : α → β} {result : Except ε α} {err : ε} :
    result.map f = .error err ↔ result = .error err := by
  cases result <;> simp [Except.map]

/-- Results that come one after the other each come from an element. -/
theorem exists_mem_of_mapM_eq_ok {α β ε : Type} {f : α → Except ε β} {l : List α}
    {results : List β} (h : l.mapM f = .ok results) : ∀ b ∈ results, ∃ a ∈ l, f a = .ok b := by
  induction l generalizing results with
  | nil =>
    obtain rfl : [] = results := pure_eq_ok_iff.mp h
    exact List.forall_mem_nil _
  | cons a rest ih =>
    obtain ⟨b, tail, hb, htail, rfl⟩ := mapM_cons_eq_ok_iff.mp h
    refine List.forall_mem_cons.mpr ⟨⟨a, List.mem_cons_self, hb⟩, fun b' hm => ?_⟩
    obtain ⟨a', ha', hb'⟩ := ih htail b' hm
    exact ⟨a', List.mem_cons_of_mem a ha', hb'⟩

/-- An error of results that come one after the other comes from an element as well. -/
theorem exists_mem_of_mapM_eq_error {α β ε : Type} {f : α → Except ε β} {l : List α} {err : ε}
    (h : l.mapM f = .error err) : ∃ a ∈ l, f a = .error err := by
  induction l with
  | nil => cases h
  | cons a rest ih =>
    rw [List.mapM_cons] at h
    cases ha : f a with
    | error err' =>
      rw [ha] at h
      cases h
      exact ⟨a, List.mem_cons_self, ha⟩
    | ok b =>
      cases hrest : rest.mapM f with
      | error err' =>
        rw [ha, hrest] at h
        cases h
        obtain ⟨a', ha', hfail⟩ := ih hrest
        exact ⟨a', List.mem_cons_of_mem a ha', hfail⟩
      | ok results =>
        rw [ha, hrest] at h
        cases h

theorem mapM_congr {α β ε : Type} {f g : α → Except ε β} {l : List α} (h : ∀ a ∈ l, f a = g a) :
    l.mapM f = l.mapM g := by
  induction l with
  | nil => rfl
  | cons a rest ih =>
    obtain ⟨ha, hrest⟩ := List.forall_mem_cons.mp h
    rw [List.mapM_cons, List.mapM_cons, ha, ih hrest]

/-- Where no element fails, the results are those of the elements. -/
theorem mapM_eq_ok_map {α β ε : Type} {f : α → Except ε β} {g : α → β} {l : List α}
    (h : ∀ a ∈ l, f a = .ok (g a)) : l.mapM f = .ok (l.map g) :=
  (mapM_congr h).trans List.mapM_pure

theorem mapM_mapError {α β ε ε' : Type} (f : α → Except ε β) (g : ε → ε') (l : List α) :
    l.mapM (fun a => (f a).mapError g) = (l.mapM f).mapError g := by
  induction l with
  | nil => rfl
  | cons a rest ih =>
    rw [List.mapM_cons, List.mapM_cons, ih]
    cases f a with
    | error err => rfl
    | ok b => cases rest.mapM f <;> rfl

theorem mapError_eq_ok_iff {α ε ε' : Type} {f : ε → ε'} {result : Except ε α} {a : α} :
    result.mapError f = .ok a ↔ result = .ok a := by
  cases result with
  | ok b => exact ⟨fun h => congrArg _ (Except.ok.inj h), fun h => congrArg _ (Except.ok.inj h)⟩
  | error e => exact ⟨nofun, nofun⟩

theorem mapError_eq_error_iff {α ε ε' : Type} {f : ε → ε'} {result : Except ε α} {err : ε'} :
    result.mapError f = .error err ↔ ∃ fault, result = .error fault ∧ f fault = err := by
  cases result with
  | ok a =>
    refine ⟨nofun, ?_⟩
    rintro ⟨_, hok, -⟩
    cases hok
  | error fault =>
    constructor
    · intro h
      exact ⟨fault, rfl, Except.error.inj h⟩
    · rintro ⟨_, ⟨⟩, rfl⟩
      rfl

/-! ### The rules of an event -/

namespace Event

theorem nameViolation_eq (name : String) :
    nameViolation name
      = if name = "" then some .emptyName
        else if name ∈ reservedNames then some (.reservedName name) else none := by
  simp only [nameViolation, Textual.ofString_string]
  by_cases hreserved : name ∈ reservedNames
  · have hsome : (reservedNames.find? fun reserved => reserved = name).isSome :=
      List.find?_isSome.mpr ⟨name, hreserved, decide_eq_true rfl⟩
    obtain ⟨found, hfound⟩ := Option.isSome_iff_exists.mp hsome
    have hname : found = name := by simpa using List.find?_some hfound
    rw [hfound, if_pos hreserved, Option.map_some, hname]
  · rw [List.find?_eq_none.mpr (by simpa using fun r hr (h : r = name) => hreserved (h ▸ hr)),
      if_neg hreserved, Option.map_none]

theorem nameViolation_eq_none_iff {name : String} :
    nameViolation name = none ↔ name ≠ "" ∧ name ∉ reservedNames := by
  rw [nameViolation_eq]
  by_cases hempty : name = "" <;> by_cases hreserved : name ∈ reservedNames <;>
    simp [hempty, hreserved]

theorem violations_eq_nil_iff {e : Event} :
    e.violations = [] ↔ (∀ f, e.required f ≠ "")
      ∧ ∀ name ∈ e.attributes.names, name ≠ "" ∧ name ∉ reservedNames := by
  have hrequired : requiredViolations (fun f => e.required f = "") = []
      ↔ ∀ f, e.required f ≠ "" := by
    simp [requiredViolations, List.filter_eq_nil_iff, RequiredField.mem_all]
  have hnames : e.attributes.names.filterMap nameViolation = []
      ↔ ∀ name ∈ e.attributes.names, name ≠ "" ∧ name ∉ reservedNames := by
    simp only [List.filterMap_eq_nil_iff, nameViolation_eq_none_iff]
  rw [violations, List.append_eq_nil_iff, Textual.ofString_string, hrequired, hnames]

theorem check_eq_ok_iff {e e' : Event} : e.check = .ok e' ↔ e.violations = [] ∧ e = e' :=
  Violation.accept_eq_ok_iff

/-- An event is valid when it breaks no rule, given that its attributes are a map of valid values.
The check looks at nothing else, because nothing else is built otherwise. -/
theorem valid_iff {e : Event} :
    e.Valid ↔ e.violations = [] ∧ e.attributes.names.Nodup
      ∧ ∀ entry ∈ e.attributes, entry.2.Valid := by
  rw [violations_eq_nil_iff]
  constructor
  · intro h
    exact ⟨⟨h.required_ne_empty, fun name hm => ⟨h.name_ne_empty name hm,
      h.name_not_reserved name hm⟩⟩, h.names_nodup, h.value_valid⟩
  · rintro ⟨⟨hrequired, hnames⟩, hnodup, hvalues⟩
    exact ⟨hrequired, hnodup, fun name hm => (hnames name hm).1, fun name hm => (hnames name hm).2,
      hvalues⟩

instance (e : Event) : Decidable e.Valid := decidable_of_iff _ valid_iff.symm

/-- An attribute that is written into a valid event breaks no rule but by its own name. -/
theorem violations_insert {e : Event} (he : e.Valid) (name : String) (value : AttributeValue) :
    { e with attributes := e.attributes.insert name value }.violations
      = (nameViolation name).toList := by
  obtain ⟨hrequired, hnames⟩ := violations_eq_nil_iff.mp (valid_iff.mp he).1
  have hheld : e.attributes.names.filterMap nameViolation = [] :=
    List.filterMap_eq_nil_iff.mpr fun name hm => nameViolation_eq_none_iff.mpr (hnames name hm)
  have hall : requiredViolations (fun f => e.required f = "") = [] := by
    simp [requiredViolations, hrequired]
  show requiredViolations (fun f => e.required f = "") ++ _ = _
  rw [hall, List.nil_append, NameMap.names_insert]
  split
  · rename_i hm
    rw [hheld, nameViolation_eq_none_iff.mpr (hnames name hm), Option.toList_none]
  · rw [List.filterMap_append, hheld, List.nil_append]
    cases h : nameViolation name <;> simp [h]

theorem valid_insert {e : Event} (he : e.Valid) {name : String} (hname : nameViolation name = none)
    {value : AttributeValue} (hvalue : value.Valid) :
    { e with attributes := e.attributes.insert name value }.Valid := by
  refine valid_iff.mpr ⟨?_, NameMap.nodup_insert he.names_nodup name value, ?_⟩
  · rw [violations_insert he, hname, Option.toList_none]
  · intro entry hm
    rcases NameMap.mem_insert hm with rfl | hm
    · exact hvalue
    · exact he.value_valid entry hm

end Event

/-! ### Messages -/

theorem AttributeMessage.toValue_eq_ok_iff {name : String} {m : AttributeMessage}
    {v : AttributeValue} : m.toValue name = .ok v ↔ m = { value := some v } ∧ v.Valid := by
  obtain ⟨value, unknown⟩ := m
  cases unknown with
  | cons r rest =>
    simp only [toValue]
    split <;> simp
  | nil =>
    cases value with
    | none => simp [toValue]
    | some value =>
      simp only [toValue, mapError_eq_ok_iff, AttributeValue.check_eq_ok_iff,
        AttributeMessage.mk.injEq, Option.some.injEq, and_true]
      constructor
      · rintro ⟨hv, rfl⟩
        exact ⟨rfl, hv⟩
      · rintro ⟨rfl, hv⟩
        exact ⟨hv, rfl⟩

namespace EventMessage

/-- Every entry is interpreted to the value that it holds. -/
theorem mapM_toValue_eq_ok_iff {entries : NameMap AttributeMessage}
    {attributes : NameMap AttributeValue} :
    (entries.mapM fun entry => do return (entry.1, ← entry.2.toValue entry.1)) = .ok attributes
      ↔ entries = attributes.map (fun entry => (entry.1, { value := some entry.2 }))
        ∧ ∀ entry ∈ attributes, entry.2.Valid := by
  induction entries generalizing attributes with
  | nil => cases attributes <;> simp [pure, Except.pure]
  | cons entry rest ih =>
    obtain ⟨name, m⟩ := entry
    simp only [mapM_cons_eq_ok_iff, bind_eq_ok_iff, pure_eq_ok_iff,
      AttributeMessage.toValue_eq_ok_iff, ih]
    constructor
    · rintro ⟨_, tail, ⟨v, ⟨rfl, hv⟩, rfl⟩, ⟨rfl, htail⟩, rfl⟩
      exact ⟨rfl, List.forall_mem_cons.mpr ⟨hv, htail⟩⟩
    · rintro ⟨hmap, hvalid⟩
      cases attributes with
      | nil => cases hmap
      | cons entry' tail =>
        obtain ⟨hv, htail⟩ := List.forall_mem_cons.mp hvalid
        obtain ⟨hhead, hrest⟩ := List.cons.inj hmap
        obtain ⟨rfl, rfl⟩ := Prod.mk.inj hhead
        exact ⟨entry', tail, ⟨entry'.2, ⟨rfl, hv⟩, rfl⟩, ⟨hrest, htail⟩, rfl⟩

/-- The required attributes that a message leaves empty, in their order. -/
def missing (m : EventMessage) : List RequiredField :=
  RequiredField.all.filter fun f => m.required f = ""

/-- The attributes of a message, each interpreted. -/
def interpretAttributes (m : EventMessage) : Except Fault (NameMap AttributeValue) :=
  m.attributes.mapM fun entry => do return (entry.1, ← entry.2.toValue entry.1)

/-- The four ways in which a message is interpreted, one for each check that may end it. -/
theorem toEvent_eq (m : EventMessage) :
    m.toEvent =
      match m.unknownFault with
      | some fault => .error fault
      | none =>
        if m.missing = [] then
          m.interpretAttributes.bind fun attributes =>
            (Event.check
              { id := m.id, source := m.source, specVersion := m.specVersion, type := m.type
                attributes, data := m.data }).mapError .invalid
        else .error (.missing m.missing) := by
  rw [toEvent]
  cases hu : m.unknownFault with
  | some fault => rfl
  | none =>
    show (if (!m.missing.isEmpty) = true then _ else _) = _
    by_cases hm : m.missing = []
    · rw [if_pos hm, if_neg (by simp [hm])]
      rfl
    · rw [if_neg hm, if_pos (by simp [hm])]
      rfl

theorem missing_eq_nil_iff {m : EventMessage} : m.missing = [] ↔ ∀ f, m.required f ≠ "" := by
  simp [missing, List.filter_eq_nil_iff, RequiredField.mem_all]

theorem unknownFault_eq_none_iff {m : EventMessage} : m.unknownFault = none ↔ m.unknown = [] := by
  rw [unknownFault, Option.map_eq_none_iff, List.head?_eq_none_iff]

/-- **A message is accepted exactly when it is the message of an event that breaks no rule**, whose
values are valid. -/
theorem toEvent_eq_ok_iff {m : EventMessage} {e : Event} :
    m.toEvent = .ok e ↔ m = ofEvent e ∧ e.violations = []
      ∧ ∀ entry ∈ e.attributes, entry.2.Valid := by
  rw [toEvent_eq]
  constructor
  · intro h
    split at h
    · cases h
    · rename_i hu
      split at h
      · obtain ⟨attributes, hattributes, hcheck⟩ := bind_eq_ok_iff.mp h
        obtain ⟨hmap, hvalid⟩ := mapM_toValue_eq_ok_iff.mp hattributes
        obtain ⟨hviolations, rfl⟩ := Event.check_eq_ok_iff.mp (mapError_eq_ok_iff.mp hcheck)
        refine ⟨?_, hviolations, hvalid⟩
        obtain ⟨id, source, specVersion, type, entries, data, unknown⟩ := m
        obtain rfl : unknown = [] := unknownFault_eq_none_iff.mp hu
        obtain rfl : entries = _ := hmap
        rfl
      · cases h
  · rintro ⟨rfl, hviolations, hvalid⟩
    have hu : (ofEvent e).unknownFault = none := rfl
    have hm : (ofEvent e).missing = [] := by
      simpa [missing_eq_nil_iff] using (Event.violations_eq_nil_iff.mp hviolations).1
    have ha : (ofEvent e).interpretAttributes = .ok e.attributes :=
      mapM_toValue_eq_ok_iff.mpr ⟨rfl, hvalid⟩
    simp only [hu, hm, if_true, ha]
    exact mapError_eq_ok_iff.mpr (Event.check_eq_ok_iff.mpr ⟨hviolations, rfl⟩)

/-- A message that holds a map is accepted exactly when it is the message of a valid event. -/
theorem toEvent_eq_ok_iff_valid {m : EventMessage} (h : m.attributes.names.Nodup) {e : Event} :
    m.toEvent = .ok e ↔ m = ofEvent e ∧ e.Valid := by
  rw [toEvent_eq_ok_iff, Event.valid_iff]
  constructor
  · rintro ⟨rfl, hviolations, hvalid⟩
    exact ⟨rfl, hviolations, names_ofEvent e ▸ h, hvalid⟩
  · rintro ⟨rfl, hviolations, -, hvalid⟩
    exact ⟨rfl, hviolations, hvalid⟩

/-- The event of a message at a position of a batch. -/
def toEventAt (event : EventMessage × Nat) : Except DecodeError Event :=
  event.1.toEvent.mapError fun fault => DecodeError.atIndex { fault } event.2

end EventMessage

/-- A batch is interpreted event by event, each at its position. -/
theorem BatchMessage.toBatch_eq (m : BatchMessage) :
    m.toBatch =
      match m.unknownFault with
      | some fault => .error { fault }
      | none => (m.events.zipIdx.mapM EventMessage.toEventAt).map fun events => { events } := by
  rw [toBatch]
  cases m.unknownFault with
  | some fault => rfl
  | none =>
    show (m.events.zipIdx.mapM EventMessage.toEventAt).bind _ = _
    cases m.events.zipIdx.mapM EventMessage.toEventAt <;> rfl

/-! ### Bytes -/

theorem Codec.parse_eq_ok_iff {α : Type} {c : Codec} {place : Place} {parser : Bytes → Option α}
    {bytes : Bytes} {m : α} : c.parse place parser bytes = .ok m
      ↔ bytes.length ≤ c.maxMessageSize ∧ parser bytes = some m := by
  rw [Codec.parse]
  by_cases hsize : c.maxMessageSize < bytes.length
  · simp [hsize, Nat.not_le.mpr hsize]
  · rw [if_neg hsize]
    cases parser bytes <;> simp [Nat.not_lt.mp hsize]

/-- **Accepted bytes** are those within the limit that parse as the message of a valid event. -/
theorem Codec.decode_eq_ok_iff {c : Codec} {bytes : Bytes} {e : Event} :
    c.decode bytes = .ok e ↔ bytes.length ≤ c.maxMessageSize
      ∧ EventMessage.parse maxDepth bytes = some (.ofEvent e) ∧ e.Valid := by
  have hbind : c.decode bytes = .ok e
      ↔ ∃ m, c.parse .event (EventMessage.parse maxDepth) bytes = .ok m ∧ m.toEvent = .ok e :=
    mapError_eq_ok_iff.trans bind_eq_ok_iff
  rw [hbind]
  constructor
  · rintro ⟨m, hm, he⟩
    obtain ⟨hle, hparse⟩ := Codec.parse_eq_ok_iff.mp hm
    obtain ⟨rfl, hvalid⟩ :=
      (EventMessage.toEvent_eq_ok_iff_valid (EventMessage.names_nodup_of_parse hparse)).mp he
    exact ⟨hle, hparse, hvalid⟩
  · rintro ⟨hle, hparse, hvalid⟩
    refine ⟨.ofEvent e, Codec.parse_eq_ok_iff.mpr ⟨hle, hparse⟩, ?_⟩
    have hnodup := EventMessage.names_ofEvent e ▸ hvalid.names_nodup
    exact (EventMessage.toEvent_eq_ok_iff_valid hnodup).mpr ⟨rfl, hvalid⟩

end CloudEvents
