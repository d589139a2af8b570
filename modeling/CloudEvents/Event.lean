import CloudEvents.Attribute
import CloudEvents.EventData
import CloudEvents.NameMap
import CloudEvents.Text.CodePoints

/-!
# Events

An event is four required texts, a map of named attributes and at most one payload. Events are
values: an update returns a new event, built from the old one's parts and checked again, so every
event that any operation returns has passed the same check.

Two events are the same when their fields agree and their attribute maps agree as maps
(`Event.Same`); the order in which attributes were set does not count.

## Main definitions

* `Event`, `Event.Valid`, `Event.check` — the type, its rules, and the check of the rules
* `Event.getAttribute`, `Event.withAttribute`, `Event.withoutAttribute`, `Event.withData`
* `Event.asBinary`, `Event.asText`, `Event.asStructured` — the payload, read as a kind
* `Event.Same`
-/

namespace CloudEvents

/-- An event envelope. -/
structure Event (τ : Type := String) where
  id : τ
  source : τ
  specVersion : τ
  type : τ
  attributes : NameMap (AttributeValue τ) τ := []
  data : Option (EventData τ) := none
  deriving DecidableEq

/-! ### Rules -/

section Rules

open Textual (ofString)

variable {τ : Type}

/-- The rule that a name breaks as a name of an optional attribute. -/
def nameViolation [DecidableEq τ] [Textual τ] (name : τ) : Option Violation :=
  if name = ofString "" then some .emptyName
  else (reservedNames.find? fun reserved => ofString reserved = name).map .reservedName

/-- The required attributes that a test reports as absent, in their order. -/
def requiredViolations (absent : RequiredField → Bool) : List Violation :=
  (RequiredField.all.filter absent).map .required

namespace Event

/-- The text of a required attribute. -/
def required (e : Event τ) : RequiredField → τ
  | .id => e.id
  | .source => e.source
  | .specVersion => e.specVersion
  | .type => e.type

/-- The rules that the parts break together: required attributes first, then names in the order of
the entries. The parts themselves were checked when they were built. -/
def violations [DecidableEq τ] [Textual τ] (e : Event τ) : List Violation :=
  requiredViolations (fun f => e.required f = ofString "")
    ++ e.attributes.names.filterMap nameViolation

/-- The event itself, or the rules it breaks. -/
def check [DecidableEq τ] [Textual τ] (e : Event τ) : Except (List Violation) (Event τ) :=
  Violation.accept e e.violations

/-- What every event satisfies once it has been built. -/
structure Valid [Textual τ] (e : Event τ) : Prop where
  required_ne_empty : ∀ f, e.required f ≠ ofString ""
  names_nodup : e.attributes.names.Nodup
  name_ne_empty : ∀ name ∈ e.attributes.names, name ≠ ofString ""
  name_not_reserved : ∀ name ∈ e.attributes.names, name ∉ reservedNames.map ofString
  value_valid : ∀ entry ∈ e.attributes, entry.2.Valid

end Event

end Rules

namespace Event

/-! ### Sameness -/

/-- Equality of events: the order of the attributes does not count. -/
structure Same (a b : Event) : Prop where
  required_eq : ∀ f, a.required f = b.required f
  attributes_equiv : a.attributes.Equiv b.attributes
  data_eq : a.data = b.data

/-- Decides `Same`. -/
def same (a b : Event) : Bool :=
  a.id = b.id && a.source = b.source && a.specVersion = b.specVersion && a.type = b.type
    && a.attributes.same b.attributes && a.data = b.data

theorem same_iff {a b : Event} : a.same b = true ↔ a.Same b := by
  simp only [same, Bool.and_eq_true, decide_eq_true_eq, NameMap.same_iff_equiv]
  constructor
  · rintro ⟨⟨⟨⟨⟨hi, hs⟩, hv⟩, ht⟩, ha⟩, hd⟩
    exact ⟨fun f => by cases f <;> assumption, ha, hd⟩
  · intro h
    exact ⟨⟨⟨⟨⟨h.required_eq .id, h.required_eq .source⟩, h.required_eq .specVersion⟩,
      h.required_eq .type⟩, h.attributes_equiv⟩, h.data_eq⟩

instance (a b : Event) : Decidable (a.Same b) := decidable_of_iff _ same_iff

theorem Same.symm {a b : Event} (h : a.Same b) : b.Same a where
  required_eq f := (h.required_eq f).symm
  attributes_equiv name := (h.attributes_equiv name).symm
  data_eq := h.data_eq.symm

theorem Same.trans {a b c : Event} (hab : a.Same b) (hbc : b.Same c) : a.Same c where
  required_eq f := (hab.required_eq f).trans (hbc.required_eq f)
  attributes_equiv name := (hab.attributes_equiv name).trans (hbc.attributes_equiv name)
  data_eq := hab.data_eq.trans hbc.data_eq

/-! ### Attributes -/

def getAttribute (e : Event) (name : String) : Except Error AttributeValue :=
  match e.attributes.lookup name with
  | some value => .ok value
  | none => .error (.notSet name)

def hasAttribute (e : Event) (name : String) : Bool := (e.attributes.lookup name).isSome

/-- The event with one attribute set. A reserved name is refused before anything else. -/
def withAttribute (e : Event) (name : String) (value : AttributeValue) : Except Error Event :=
  if name ∈ reservedNames then .error (.reservedName name)
  else ({ e with attributes := e.attributes.insert name value }.check).mapError .invalid

/-- The event with one attribute unset, whether or not it was set. -/
def withoutAttribute (e : Event) (name : String) : Except Error Event :=
  ({ e with attributes := e.attributes.erase name }.check).mapError .invalid

/-! ### Payload -/

/-- The event with another payload, or with none. -/
def withData (e : Event) (data : Option EventData) : Except Error Event :=
  ({ e with data }.check).mapError .invalid

def hasData (e : Event) : Bool := e.data.isSome

def dataKind (e : Event) : Option DataKind := e.data.map EventData.kind

def asBinary (e : Event) : Except Error Bytes :=
  match e.data with
  | some (.binary value) => .ok value
  | _ => .error (.dataMismatch .binary e.dataKind)

def asText (e : Event) : Except Error String :=
  match e.data with
  | some (.text value) => .ok value
  | _ => .error (.dataMismatch .text e.dataKind)

def asStructured (e : Event) : Except Error StructuredData :=
  match e.data with
  | some (.structured value) => .ok value
  | _ => .error (.dataMismatch .structured e.dataKind)

end Event

end CloudEvents
