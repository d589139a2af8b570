import CloudEvents.Proofs.Interpretation
import CloudEvents.Construction.Envelope
import Mathlib.Data.List.Forall2

/-!
# What loose arguments report

Loose arguments may break rules of three sorts: required attributes that are empty, attribute names
that are empty or reserved, and a payload that is one of several or not of its kind. The rules are
looked at in three places, and each place ends the construction when it finds something. This module
compares what is reported with all that is to be reported, for arguments of the right types.

The report is complete unless a single payload of the wrong type is given along with other faults.
Several payloads are reported after the rules of the envelope, but a single payload is built before
these are looked at, and its violation then stands alone (`EventArguments.PayloadHidesRules`).

## Main definitions

* `EventArguments.Offers` — arguments of the right types, and the event that they describe
* `EventArguments.report` — all rules that the arguments break
* `EventArguments.PayloadHidesRules` — the arguments of which less is reported

## Main results

* `Event.create_eq` — the outcome, by the number of payloads
* `Event.create_reports` — when an event is created, and when everything is reported
-/

namespace CloudEvents

namespace EventArguments

/-! ### Arguments of the right types -/

/-- An entry of a dictionary for an attribute: the key is its name and the value was built. -/
def IsEntryOf (entry : Candidate × Candidate) (named : String × AttributeValue) : Prop :=
  entry.1.text? = some named.1 ∧ entry.2 = .attributeValue named.2

/-- Texts for the required attributes and a dictionary of built values for the others, which may be
left out. The keys of a dictionary are distinct. -/
structure Offers (a : EventArguments) (e : Event) : Prop where
  required : ∀ f, ∃ c, a.required f = some c ∧ c.text? = some (e.required f)
  attributes : e.attributes = [] ∧ (a.attributes = none ∨ a.attributes = some .null)
    ∨ ∃ entries, a.attributes = some (.dict entries)
        ∧ List.Forall₂ IsEntryOf entries e.attributes
  names_nodup : e.attributes.names.Nodup

/-- The payload, if a single one is given and it is of its kind. -/
def offered? (a : EventArguments) : Option EventData :=
  match a.payloads with
  | [(kind, c)] => EventData.ofContent? kind c
  | _ => none

/-- The rule that the payloads break. -/
def payloadViolation? (a : EventArguments) : Option Violation :=
  match a.payloads with
  | [] => none
  | [(kind, c)] =>
    if (EventData.ofContent? kind c).isSome then none else some (.dataType kind c.typeName)
  | several => some (.severalPayloads (several.map Prod.fst))

/-- All rules that the arguments for an event break: one entry for each required attribute that is
empty, one for each name that is empty or reserved, and one for the payloads. -/
def report (a : EventArguments) (e : Event) : List Violation :=
  (RequiredField.all.filter fun f => e.required f = "").map .required
    ++ e.attributes.names.filterMap nameViolation ++ a.payloadViolation?.toList

/-- A single payload is not of its kind, and it is not the only fault. -/
def PayloadHidesRules (a : EventArguments) (e : Event) : Prop :=
  e.violations ≠ [] ∧ ∃ kind c, a.payloads = [(kind, c)] ∧ EventData.ofContent? kind c = none

end EventArguments

/-! ### Parts -/

namespace Candidate

/-- A text counts as absent if it is empty. The name of a kind never is. -/
theorem isFalsy_of_text? {c : Candidate} {text : String} (h : c.text? = some text) :
    c.isFalsy = decide (text = "") := by
  cases c with
  | text value =>
    cases h
    rfl
  | attributeKind kind =>
    cases h
    cases kind <;> rfl
  | dataKind kind =>
    cases h
    cases kind <;> rfl
  | _ => cases h

theorem readText_of_text? {c : Candidate} {text : String} (h : c.text? = some text) :
    c.readText = .value text := by
  rw [readText, h]

theorem readAttribute_of_isEntryOf {entry : Candidate × Candidate}
    {named : String × AttributeValue} (h : EventArguments.IsEntryOf entry named) :
    readAttribute entry = .value named := by
  obtain ⟨key, value⟩ := entry
  obtain ⟨hkey, rfl⟩ := h
  rw [readAttribute, readText_of_text? hkey]
  rfl

theorem readAttributes_of_entries {entries : Entries} {attributes : NameMap AttributeValue}
    (h : List.Forall₂ EventArguments.IsEntryOf entries attributes)
    (hnodup : attributes.names.Nodup) :
    readAttributes (.dict entries) = .value attributes := by
  have hread : entries.map readAttribute = attributes.map Built.value := by
    induction h with
    | nil => rfl
    | cons hentry _ ih =>
      rw [List.map_cons, List.map_cons, readAttribute_of_isEntryOf hentry,
        ih (List.nodup_cons.mp hnodup).2]
  rw [readAttributes, Built.collect_eq_value_iff.mpr hread, Built.map,
    NameMap.ofList_eq_self hnodup]

end Candidate

theorem Entries.required_of_text? {name : String} {fields : Entries} {c : Candidate}
    (hlookup : fields.lookup name = some c) {text : String} (h : c.text? = some text) :
    fields.required name Candidate.readText = .value text := by
  rw [required, hlookup]
  simp only [Candidate.readText_of_text? h]
  rfl

namespace EventArguments

variable {a : EventArguments} {e : Event} {entries : Entries}

theorem Offers.attributeEntries_eq (h : a.Offers e) :
    ∃ entries, a.attributeEntries = .ok entries ∧ List.Forall₂ IsEntryOf entries e.attributes := by
  obtain ⟨hnone, hattributes⟩ | ⟨entries, hattributes, hentries⟩ := h.attributes
  · refine ⟨[], ?_, hnone ▸ .nil⟩
    obtain hattributes | hattributes := hattributes
    · rw [attributeEntries, hattributes]
    · rw [attributeEntries, hattributes]
      rfl
  · refine ⟨entries, ?_, hentries⟩
    rw [attributeEntries, hattributes]
    cases entries <;> rfl

theorem filterMap_keyViolation {attributes : NameMap AttributeValue}
    (h : List.Forall₂ IsEntryOf entries attributes) :
    (entries.filterMap fun entry => keyViolation entry.1)
      = attributes.names.filterMap nameViolation := by
  induction h with
  | nil => rfl
  | cons hentry _ ih =>
    rw [NameMap.names_cons, List.filterMap_cons, List.filterMap_cons, ih, keyViolation, hentry.1]

/-- The rules that are reported beside several payloads are those of the event. -/
theorem Offers.violations_eq (h : a.Offers e)
    (hentries : List.Forall₂ IsEntryOf entries e.attributes) :
    a.violations entries = e.violations := by
  have hrequired : (fun f => (a.required f).all Candidate.isFalsy)
      = fun f => decide (e.required f = "") := by
    funext f
    obtain ⟨c, hc, htext⟩ := h.required f
    rw [hc, Option.all_some, Candidate.isFalsy_of_text? htext]
  rw [violations, Event.violations, hrequired, filterMap_keyViolation hentries,
    Textual.ofString_string]

/-- The event is built from the fields that are made of the arguments, and checked. -/
theorem Offers.build_fields (h : a.Offers e)
    (hentries : List.Forall₂ IsEntryOf entries e.attributes)
    {payload : Candidate} {data : Option EventData} (hdata : payload.readData = .value data) :
    Event.build (a.fields entries payload) = (Built.value { e with data }).checked Event.check := by
  obtain ⟨id, hid, hidText⟩ := h.required .id
  obtain ⟨source, hsource, hsourceText⟩ := h.required .source
  obtain ⟨spec, hspec, hspecText⟩ := h.required .specVersion
  obtain ⟨type, htype, htypeText⟩ := h.required .type
  have hfields : a.fields entries payload = .ofFields
      [("id", id), ("source", source), ("spec_version", spec), ("type", type),
       ("attributes", .dict entries), ("data", payload)] := by
    simp [fields, RequiredField.all, hid, hsource, hspec, htype, RequiredField.name]
  have hattributes : (a.fields entries payload).optional "attributes" [] Candidate.readAttributes
      = .value e.attributes := by
    simp [Entries.optional, hfields, Entries.lookup_ofFields, NameMap.lookup_cons,
      Candidate.readAttributes_of_entries hentries h.names_nodup, Built.under]
  have hdata' : (a.fields entries payload).optional "data" none Candidate.readData
      = .value data := by
    simp [Entries.optional, hfields, Entries.lookup_ofFields, NameMap.lookup_cons, hdata,
      Built.under]
  rw [Event.build, hattributes, hdata', hfields,
    Entries.required_of_text? rfl hidText, Entries.required_of_text? rfl hsourceText,
    Entries.required_of_text? rfl hspecText, Entries.required_of_text? rfl htypeText]
  rfl

end EventArguments

/-! ### The outcome -/

namespace Event

variable {a : EventArguments} {e : Event}

/-- The outcome, by the number of payloads. -/
theorem create_eq (h : a.Offers e) :
    create a = match a.payloads with
      | [] => ({ e with data := none }.check).mapError .invalid
      | [(kind, c)] => match EventData.ofContent? kind c with
        | some data => ({ e with data := some data }.check).mapError .invalid
        | none => .error (.invalid [.dataType kind c.typeName])
      | several =>
        .error (.invalid (e.violations ++ [.severalPayloads (several.map Prod.fst)])) := by
  have hgiven : (RequiredField.all.any fun f => (a.required f).isNone) = false := by
    refine List.any_eq_false.mpr fun f _ => ?_
    obtain ⟨c, hc, -⟩ := h.required f
    simp [hc]
  obtain ⟨entries, hentries, hforall⟩ := h.attributeEntries_eq
  rw [create, hgiven, hentries]
  show (match a.payloads with
    | [] => _
    | [(kind, c)] => _
    | several => _) = _
  match a.payloads with
  | [] =>
    show (Event.build (a.fields entries .null)).toExcept .event = _
    rw [h.build_fields hforall rfl, Built.toExcept_checked_value]
  | [(kind, c)] =>
    simp only [EventData.ofKind]
    cases EventData.ofContent? kind c with
    | none => rfl
    | some data =>
      show (Event.build (a.fields entries (.eventData data))).toExcept .event = _
      rw [h.build_fields hforall rfl, Built.toExcept_checked_value]
  | first :: second :: rest =>
    show Except.error (Error.invalid (a.violations entries ++ _)) = _
    rw [h.violations_eq hforall]

theorem report_eq (a : EventArguments) (e : Event) :
    a.report e = e.violations ++ a.payloadViolation?.toList :=
  rfl

/-- A single payload that is not of its kind is reported, and nothing else. -/
theorem create_of_hidden (h : a.Offers e) (hhidden : a.PayloadHidesRules e) :
    ∃ violation, a.payloadViolation? = some violation
      ∧ create a = .error (.invalid [violation]) := by
  obtain ⟨-, kind, c, hpayloads, hcontent⟩ := hhidden
  refine ⟨.dataType kind c.typeName, ?_, ?_⟩
  · rw [EventArguments.payloadViolation?, hpayloads]
    simp [hcontent]
  · rw [create_eq h, hpayloads]
    simp [hcontent]

/-- Otherwise the report decides. -/
theorem create_of_not_hidden (h : a.Offers e) (hhidden : ¬ a.PayloadHidesRules e) :
    create a = (Violation.accept { e with data := a.offered? } (a.report e)).mapError .invalid := by
  rw [create_eq h, report_eq, EventArguments.payloadViolation?, EventArguments.offered?]
  match hpayloads : a.payloads with
  | [] =>
    show _ = (Violation.accept _ (e.violations ++ [])).mapError _
    rw [List.append_nil]
    rfl
  | [(kind, c)] =>
    simp only
    cases hcontent : EventData.ofContent? kind c with
    | some data =>
      show _ = (Violation.accept _ (e.violations ++ [])).mapError _
      rw [List.append_nil]
      rfl
    | none =>
      have hviolations : e.violations = [] := by
        by_contra hne
        exact hhidden ⟨hne, kind, c, hpayloads, hcontent⟩
      rw [hviolations]
      rfl
  | first :: second :: rest =>
    cases e.violations <;> rfl

/-- **What is reported.** Loose arguments of the right types make the event that they describe, with
the payload that is given, if they break no rule. If they break some, exactly these are reported, in
order, unless a single payload is not of its kind and not the only fault: then this is reported
alone. -/
theorem create_reports (h : a.Offers e) :
    (a.report e = [] → create a = .ok { e with data := a.offered? })
    ∧ (a.report e ≠ [] → ∃ reported, create a = .error (.invalid reported) ∧ reported ≠ []
        ∧ (reported = a.report e ↔ ¬ a.PayloadHidesRules e)
        ∧ (a.PayloadHidesRules e → reported = a.payloadViolation?.toList)) := by
  by_cases hhidden : a.PayloadHidesRules e
  · obtain ⟨violation, hviolation, hcreate⟩ := create_of_hidden h hhidden
    have hreport : a.report e = e.violations ++ [violation] := by
      rw [report_eq, hviolation, Option.toList_some]
    refine ⟨fun hnil => ?_, fun _ => ⟨[violation], hcreate, List.cons_ne_nil _ _, ?_, fun _ => ?_⟩⟩
    · rw [hreport] at hnil
      exact absurd (List.append_eq_nil_iff.mp hnil).2 (List.cons_ne_nil _ _)
    · rw [hreport]
      exact iff_of_false (fun heq => hhidden.1 (List.self_eq_append_left.mp heq))
        (not_not_intro hhidden)
    · rw [hviolation, Option.toList_some]
  · rw [create_of_not_hidden h hhidden]
    constructor
    · intro hreport
      rw [hreport]
      rfl
    · intro hreport
      refine ⟨a.report e, ?_, hreport, iff_of_true rfl hhidden, fun h => absurd h hhidden⟩
      rw [Violation.accept_eq_error_iff.mpr ⟨hreport, rfl⟩]
      rfl

/-- An attribute and a text as payload; and faults of all sorts, two payloads among them. -/
theorem create_reports_severalPayloads :
    let a : EventArguments :=
      { id := some (.text "1"), source := some (.text "/"), specVersion := some (.text "1.0")
        type := some (.text "t"), textData := some (.text "")
        attributes := some (.dict [(.text "a", .attributeValue (.integer 1))]) }
    let e : Event :=
      { id := "1", source := "/", specVersion := "1.0", type := "t"
        attributes := [("a", .integer 1)] }
    let a' : EventArguments :=
      { a with
        source := some (.text ""), binaryData := some .null, structuredData := some (.int 0)
        attributes := some (.dict
          [(.text "id", .attributeValue (.integer 1)), (.text "", .attributeValue (.integer 2))]) }
    let e' : Event := { e with source := "", attributes := [("id", .integer 1), ("", .integer 2)] }
    let reported : List Violation :=
      [.required .source, .reservedName "id", .emptyName, .severalPayloads [.text, .structured]]
    a.Offers e ∧ create a = .ok { e with data := some (.text "") }
      ∧ a'.Offers e' ∧ a'.report e' = reported ∧ create a' = .error (.invalid reported) := by
  intro a e a' e' reported
  have ha : a.Offers e :=
    ⟨fun f => by cases f <;> exact ⟨_, rfl, rfl⟩, .inr ⟨_, rfl, .cons ⟨rfl, rfl⟩ .nil⟩, by decide⟩
  have ha' : a'.Offers e' :=
    ⟨fun f => by cases f <;> exact ⟨_, rfl, rfl⟩,
      .inr ⟨_, rfl, .cons ⟨rfl, rfl⟩ (.cons ⟨rfl, rfl⟩ .nil)⟩, by decide⟩
  have hreport : a'.report e' = reported := rfl
  have hne : a'.report e' ≠ [] := hreport ▸ List.cons_ne_nil _ _
  have hhidden : ¬ a'.PayloadHidesRules e' := by
    rintro ⟨-, kind, c, ⟨⟩, -⟩
  obtain ⟨reported', hcreate, -, hall, -⟩ := (create_reports ha').2 hne
  rw [hall.mpr hhidden, hreport] at hcreate
  exact ⟨ha, (create_reports ha).1 rfl, ha', hreport, hcreate⟩

/-- **Not everything is reported.** With an empty identifier and a text for bytes, the payload is
reported and the identifier is not. -/
theorem not_create_reports_all :
    let a : EventArguments :=
      { id := some (.text ""), source := some (.text "s"), specVersion := some (.text "1.0")
        type := some (.text "t"), binaryData := some (.text "x") }
    let e : Event := { id := "", source := "s", specVersion := "1.0", type := "t" }
    a.Offers e ∧ a.report e = [.required .id, .dataType .binary "str"]
      ∧ create a = .error (.invalid [.dataType .binary "str"]) := by
  intro a e
  refine ⟨⟨fun f => ?_, .inl ⟨rfl, .inl rfl⟩, List.nodup_nil⟩, rfl, rfl⟩
  cases f <;> exact ⟨_, rfl, rfl⟩

end Event

end CloudEvents
