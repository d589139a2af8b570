import CloudEvents.Candidate.Calls
import CloudEvents.Proofs.Updates

/-!
# Building from a dump

A dump offers the fields of an event again, each of them taken apart, and building puts them
together. Attributes and payloads are built from their dictionaries, but what they hold is accepted
as it is and never built. So the content of five of the seven kinds of attributes and of two of the
three kinds of payloads, which are scalars and stay what they are in a dump, comes back unchanged. A
timestamp and a typed message are dictionaries in a dump, and a dictionary is neither.

Every part of an event is either built again or breaks one rule (`Built.valueUnless`), and the first
rule that is broken ends the construction, so the outcome for the whole is the first broken rule of
its parts: attributes in their order before the payload, events in their order in a batch.

## Main definitions

* `Event.dumpViolation?`, and one for each part — the rule that ends building from a dump
* `Event.HoldsScalars` — the events whose dump breaks none

## Main results

* `AttributeValue.build_dump`, `EventData.build_dump`, `Event.build_dump`, `Batch.build_dump`
* `Model.make_dump` — the constructors, called with the fields of a dump
-/

namespace CloudEvents

/-! ### One rule at most -/

namespace Built

variable {α β : Type}

/-- A value, unless it breaks a rule. -/
def valueUnless : Option Violation → α → Built α
  | none, a => value a
  | some violation, _ => broken [violation]

theorem map_valueUnless (f : α → β) (violation : Option Violation) (a : α) :
    (valueUnless violation a).map f = valueUnless violation (f a) := by
  cases violation <;> rfl

theorem under_valueUnless (step : Step) (violation : Option Violation) (a : α) :
    (valueUnless violation a).under step = valueUnless violation a := by
  cases violation <;> rfl

/-- The first part that breaks its rule ends the construction. -/
theorem apply_valueUnless (first second : Option Violation) (f : α → β) (a : α) :
    (valueUnless first f).apply (valueUnless second a) = valueUnless (first.or second) (f a) := by
  cases first <;> cases second <;> rfl

/-- A part is looked at alone where nothing else is reported. -/
theorem alongside_valueUnless (violation : Option Violation) (a : α) (b : β) :
    (valueUnless violation a).alongside (value b) = valueUnless violation a := by
  cases violation <;> rfl

/-- The rules of the whole come after those of its parts. -/
theorem checked_valueUnless {rules : α → Except (List Violation) β} {a : α} {b : β}
    (h : rules a = .ok b) (violation : Option Violation) :
    (valueUnless violation a).checked rules = valueUnless violation b := by
  cases violation with
  | none => exact checked_eq_value_iff.mpr ⟨a, rfl, h⟩
  | some _ => rfl

theorem collect_valueUnless {γ : Type} (violation : γ → Option Violation) (result : γ → α)
    (parts : List γ) :
    collect (parts.map fun part => valueUnless (violation part) (result part))
      = valueUnless (parts.findSome? violation) (parts.map result) := by
  induction parts with
  | nil => rfl
  | cons part rest ih =>
    rw [List.map_cons, collect, ih, map_valueUnless, apply_valueUnless, List.map_cons,
      List.findSome?_cons]
    cases violation part <;> rfl

theorem toExcept_valueUnless (model : Model) (violation : Option Violation) (a : α) :
    (valueUnless violation a).toExcept model = match violation with
      | none => .ok a
      | some violation => .error (.invalid [violation]) := by
  cases violation <;> rfl

end Built

/-! ### Attributes and payloads -/

/-- The rule that the dump of an attribute breaks. -/
def AttributeValue.dumpViolation? : AttributeValue → Option Violation
  | timestamp _ => some (.attributeType .timestamp "dict")
  | _ => none

/-- The rule that the dump of a payload breaks. -/
def EventData.dumpViolation? : EventData → Option Violation
  | structured _ => some (.dataType .structured "dict")
  | _ => none

theorem AttributeValue.dumpViolation?_eq_none_iff {v : AttributeValue} :
    v.dumpViolation? = none ↔ v.kind ≠ .timestamp := by
  cases v <;> simp [dumpViolation?, kind]

theorem EventData.dumpViolation?_eq_none_iff {d : EventData} :
    d.dumpViolation? = none ↔ d.kind ≠ .structured := by
  cases d <;> simp [dumpViolation?, kind]

/-- The kind in a dump is the kind itself, and is found by its name. -/
theorem AttributeValue.build_ofFields (kind : AttributeKind) (c : Candidate) :
    build (.ofFields [("kind", .attributeKind kind), ("value", c)])
      = (Built.value (kind, c)).checked fun (kind, value) => ofKind kind value := by
  cases kind <;> rfl

/-- The content of an attribute is checked again. -/
theorem AttributeValue.build_dump {v : AttributeValue} (h : v.Valid) :
    v.dump.readModel Candidate.asAttributeValue? build = .valueUnless v.dumpViolation? v := by
  refine (build_ofFields v.kind _).trans ?_
  cases v with
  | integer i =>
    have hkind : ofKind .integer (.int i) = .ok (integer i) := check_eq_ok_iff.mpr ⟨h, rfl⟩
    exact Built.checked_eq_value_iff.mpr ⟨_, rfl, hkind⟩
  | _ => rfl

theorem EventData.build_dump (d : EventData) :
    d.dump.readModel Candidate.asEventData? build = .valueUnless d.dumpViolation? d := by
  cases d <;> rfl

/-! ### Events -/

namespace Event

/-- The rule that ends building an event from its dump. -/
def dumpViolation? (e : Event) : Option Violation :=
  (e.attributes.findSome? fun entry => entry.2.dumpViolation?).or
    (e.data.bind EventData.dumpViolation?)

/-- All that an event holds is scalars: no timestamp, and no typed message. -/
structure HoldsScalars (e : Event) : Prop where
  attribute_kind_ne : ∀ entry ∈ e.attributes, entry.2.kind ≠ .timestamp
  dataKind_ne : e.dataKind ≠ some .structured

variable {e : Event}

theorem dumpViolation?_eq_none_iff : e.dumpViolation? = none ↔ e.HoldsScalars := by
  have hdata : e.data.bind EventData.dumpViolation? = none ↔ e.dataKind ≠ some .structured := by
    rw [dataKind]
    cases e.data with
    | none => simp
    | some d => simp [EventData.dumpViolation?_eq_none_iff]
  rw [dumpViolation?, Option.or_eq_none_iff, List.findSome?_eq_none_iff, hdata]
  simp only [AttributeValue.dumpViolation?_eq_none_iff]
  exact ⟨fun h => ⟨h.1, h.2⟩, fun h => ⟨h.attribute_kind_ne, h.dataKind_ne⟩⟩

theorem readAttribute_dump {entry : String × AttributeValue} (h : entry.2.Valid) :
    Candidate.readAttribute (.text entry.1, entry.2.dump)
      = .valueUnless entry.2.dumpViolation? entry := by
  rw [Candidate.readAttribute, AttributeValue.build_dump h]
  cases entry.2.dumpViolation? <;> rfl

theorem readAttributes_dump (h : e.Valid) :
    (Candidate.ofFields (e.attributes.map fun entry => (entry.1, entry.2.dump))).readAttributes
      = .valueUnless (e.attributes.findSome? fun entry => entry.2.dumpViolation?) e.attributes := by
  have hread : (e.attributes.map fun entry => (Candidate.text entry.1, entry.2.dump)).map
      Candidate.readAttribute
        = e.attributes.map fun entry => .valueUnless entry.2.dumpViolation? entry := by
    rw [List.map_map]
    exact List.map_congr_left fun entry hm => readAttribute_dump (h.value_valid entry hm)
  have hcollect := Built.collect_valueUnless
    (fun entry : String × AttributeValue => entry.2.dumpViolation?) (fun entry => entry)
    e.attributes
  rw [List.map_id'] at hcollect
  rw [Candidate.ofFields, List.map_map, Candidate.readAttributes]
  show (Built.collect ((e.attributes.map fun entry => (Candidate.text entry.1, entry.2.dump)).map
    Candidate.readAttribute)).map NameMap.ofList = _
  rw [hread]
  refine (congrArg (Built.map NameMap.ofList) hcollect).trans ?_
  rw [Built.map_valueUnless, NameMap.ofList_eq_self h.names_nodup]

theorem readData_dump (e : Event) :
    Candidate.readData ((e.data.map EventData.dump).getD .null)
      = .valueUnless (e.data.bind EventData.dumpViolation?) e.data := by
  cases e.data with
  | none => rfl
  | some d =>
    show (d.dump.readModel Candidate.asEventData? EventData.build).map some = _
    rw [EventData.build_dump, Built.map_valueUnless]
    rfl

/-- **A valid event is built again from its dump**, unless one of its parts breaks a rule there. -/
theorem build_dump (h : e.Valid) :
    build (.ofFields e.dumpFields) = .valueUnless e.dumpViolation? e := by
  have hattributes : (Entries.ofFields e.dumpFields).optional "attributes" []
      Candidate.readAttributes
        = .valueUnless (e.attributes.findSome? fun entry => entry.2.dumpViolation?)
            e.attributes := by
    simp [Entries.optional, Entries.lookup_ofFields, NameMap.lookup_cons, dumpFields,
      readAttributes_dump h, Built.under_valueUnless]
  have hdata : (Entries.ofFields e.dumpFields).optional "data" none Candidate.readData
      = .valueUnless (e.data.bind EventData.dumpViolation?) e.data := by
    simp [Entries.optional, Entries.lookup_ofFields, NameMap.lookup_cons, dumpFields,
      readData_dump, Built.under_valueUnless]
  rw [build, hattributes, hdata]
  show (((((Built.valueUnless none (Event.mk e.id e.source e.specVersion e.type)).apply _).apply
    _).alongside (.value ())).checked check) = _
  rw [Built.apply_valueUnless, Built.apply_valueUnless, Built.alongside_valueUnless,
    Built.checked_valueUnless (check_of_valid h), Option.none_or]
  rfl

end Event

/-! ### Batches -/

namespace Batch

/-- The rule that ends building a batch from its dump. -/
def dumpViolation? (b : Batch) : Option Violation := b.events.findSome? Event.dumpViolation?

variable {b : Batch}

theorem dumpViolation?_eq_none_iff :
    b.dumpViolation? = none ↔ ∀ e ∈ b.events, e.HoldsScalars := by
  rw [dumpViolation?, List.findSome?_eq_none_iff]
  simp only [Event.dumpViolation?_eq_none_iff]

theorem readEvents_dump (h : ∀ e ∈ b.events, e.Valid) :
    (Candidate.tuple (b.events.map Event.dump)).readEvents
      = .valueUnless b.dumpViolation? b.events := by
  have hread : ((b.events.map Event.dump).zipIdx.map fun pair =>
      (pair.1.readModel Candidate.asEvent? Event.build).under (.index pair.2))
        = b.events.map fun e => .valueUnless e.dumpViolation? e := by
    rw [List.zipIdx_map, List.map_map]
    conv_rhs => rw [← List.zipIdx_map_fst 0 b.events, List.map_map]
    refine List.map_congr_left fun pair hpair => ?_
    have hvalid := h pair.1 (List.fst_mem_of_mem_zipIdx hpair)
    show (Event.build (.ofFields pair.1.dumpFields)).under _ = _
    rw [Event.build_dump hvalid, Built.under_valueUnless]
    rfl
  have hcollect := Built.collect_valueUnless Event.dumpViolation? (fun e => e) b.events
  rw [List.map_id'] at hcollect
  exact (congrArg Built.collect hread).trans hcollect

theorem build_dump (h : ∀ e ∈ b.events, e.Valid) :
    build (.ofFields b.dumpFields) = .valueUnless b.dumpViolation? b := by
  have hentries : (Entries.ofFields b.dumpFields).optional "entries" [] Candidate.readEvents
      = .valueUnless b.dumpViolation? b.events := by
    simp [Entries.optional, Entries.lookup_ofFields, dumpFields, readEvents_dump h,
      Built.under_valueUnless]
  show ((Built.valueUnless none Batch.mk).apply
    ((Entries.ofFields b.dumpFields).optional "entries" [] Candidate.readEvents)).alongside
      (.value ()) = _
  rw [hentries, Built.apply_valueUnless, Built.alongside_valueUnless, Option.none_or]

end Batch

/-! ### The constructors -/

/-- **Building from a dump.** The constructor of events, called with the fields of the dump of a
valid event, gives that event if all that the event holds is scalars. If it holds a timestamp or
typed message, a dictionary is offered in its place, and the constructor refuses the first one with
the rule about its type and nothing else. The same goes for batches of any length, which are built
again exactly when all their events are. -/
theorem Model.make_dump :
    (∀ e : Event, e.Valid →
      Model.event.make (.ofFields e.dumpFields) = (match e.dumpViolation? with
        | none => .ok (.event e)
        | some violation => .error (.invalid [violation]))
      ∧ (e.dumpViolation? = none ↔ e.HoldsScalars))
    ∧ ∀ b : Batch, (∀ e ∈ b.events, e.Valid) →
      Model.batch.make (.ofFields b.dumpFields) = (match b.dumpViolation? with
        | none => .ok (.batch b)
        | some violation => .error (.invalid [violation]))
      ∧ (b.dumpViolation? = none ↔ ∀ e ∈ b.events, e.HoldsScalars) := by
  refine ⟨fun e h => ⟨?_, Event.dumpViolation?_eq_none_iff⟩,
    fun b h => ⟨?_, Batch.dumpViolation?_eq_none_iff⟩⟩
  · rw [make, Event.build_dump h, Built.map_valueUnless, Built.toExcept_valueUnless]
  · rw [make, Batch.build_dump h, Built.map_valueUnless, Built.toExcept_valueUnless]

/-- An event with all kinds of scalars, some of them false, zero or empty, alone and twice in a
batch. -/
theorem Model.make_dump_scalars :
    let e : Event :=
      { id := "1", source := "/s", specVersion := "1.0", type := "t"
        attributes :=
          [("flag", .boolean false), ("count", .integer 0), ("text", .string ""),
           ("raw", .bytes []), ("uri", .uri "u"), ("ref", .uriRef "u")]
        data := some (.text "") }
    let b : Batch := { events := [e, e] }
    (e.Valid ∧ Model.event.make (.ofFields e.dumpFields) = .ok (.event e))
      ∧ (∀ e ∈ b.events, e.Valid) ∧ Model.batch.make (.ofFields b.dumpFields) = .ok (.batch b) := by
  intro e b
  have hvalid : e.Valid := by decide
  have hvalids : ∀ e ∈ b.events, e.Valid := by
    simpa [b] using hvalid
  exact ⟨⟨hvalid, (make_dump.1 e hvalid).1⟩, hvalids, (make_dump.2 b hvalids).1⟩

/-- Not every valid event is built again from its dump: one with a timestamp is not, and neither is
one with a typed message. -/
theorem Model.not_make_dump :
    let held (attributes : NameMap AttributeValue) (data : Option EventData) : Event :=
      { id := "1", source := "s", specVersion := "1.0", type := "t", attributes, data }
    let timed := held [("time", .timestamp { seconds := 0 })] none
    let typed := held [] (some (.structured { typeUrl := "u" }))
    (timed.Valid ∧ Model.event.make (.ofFields timed.dumpFields)
        = .error (.invalid [.attributeType .timestamp "dict"]))
      ∧ (typed.Valid ∧ Model.event.make (.ofFields typed.dumpFields)
        = .error (.invalid [.dataType .structured "dict"]))
      ∧ ¬ ∀ e : Event, e.Valid →
        ∃ e', Model.event.make (.ofFields e.dumpFields) = .ok (.event e') ∧ e'.Same e := by
  intro held timed typed
  have htimed : timed.Valid := by decide
  have hrefused : Model.event.make (.ofFields timed.dumpFields)
      = .error (.invalid [.attributeType .timestamp "dict"]) := rfl
  refine ⟨⟨htimed, hrefused⟩, ⟨by decide, rfl⟩, fun h => ?_⟩
  obtain ⟨e', he', -⟩ := h timed htimed
  cases hrefused.symm.trans he'

end CloudEvents
