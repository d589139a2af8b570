import CloudEvents.Proofs.CanonicalEncoding
import CloudEvents.Proofs.WireConstruction

/-!
# Histories of updates

An update sets an attribute, unsets one, or replaces the payload. It does not change the event that
it is called on: it builds a new one from all its parts, and every rule is checked again. A history
is a course of updates, each called on what the last successful one returned.

What a history ends in is a finite map, written update by update. That no update can lose a part of
the event, and that the rules are the same whichever way an attribute comes in, has to be seen of
one update only (`Update.apply_eq`); the induction over a history then only has to tell which of the
updates was the last one about a name.

## Main definitions

* `Update`, `Update.apply` — the updates, as the calls that they are
* `Event.after`, `Event.succeeded` — what a history ends in, and those of its updates that succeeded
* `lastUnder`, `lastPayload` — what the last of some updates leaves

## Main results

* `Update.apply_eq` — one update
* `Event.after_as_map` — a whole history
-/

namespace CloudEvents

/-- The rules that an error reports. -/
def Error.violations : Error → List Violation
  | invalid violations => violations
  | reservedName name => [.reservedName name]
  | _ => []

/-- An update of an event. -/
inductive Update where
  | set (name : String) (value : AttributeValue)
  | unset (name : String)
  | payload (data : Option EventData)

namespace Update

/-- A value that is set was built before. -/
def Valid : Update → Prop
  | set _ value => value.Valid
  | _ => True

instance : (u : Update) → Decidable u.Valid
  | set _ value => inferInstanceAs (Decidable value.Valid)
  | unset _ | payload _ => .isTrue trivial

/-- The call that an update is. -/
def apply (e : Event) : Update → Except Error Event
  | set name value => (Candidate.event e).withAttribute (.text name) (.attributeValue value)
  | unset name => (Candidate.event e).withoutAttribute (.text name)
  | payload data => (Candidate.event e).withData ((data.map .eventData).getD .null)

/-- What an update leaves under a name: a value or nothing, if the update is about the name. -/
def under (name : String) : Update → Option (Option AttributeValue)
  | set name' value => if name' = name then some (some value) else none
  | unset name' => if name' = name then some none else none
  | payload _ => none

/-- The payload that an update leaves, if it is about the payload. -/
def payload? : Update → Option (Option EventData)
  | payload data => some data
  | _ => none

end Update

/-- What the last of some updates about a name leaves under it. -/
def lastUnder (name : String) (updates : List Update) : Option (Option AttributeValue) :=
  updates.reverse.findSome? (·.under name)

/-- What the last of some updates about the payload leaves. -/
def lastPayload (updates : List Update) : Option (Option EventData) :=
  updates.reverse.findSome? Update.payload?

namespace Event

/-- The event after a history. An update that fails leaves the event to the next one. -/
def after (e : Event) : List Update → Event
  | [] => e
  | u :: rest => match u.apply e with
    | .ok e' => e'.after rest
    | .error _ => e.after rest

/-- The updates of a history that succeed. -/
def succeeded (e : Event) : List Update → List Update
  | [] => []
  | u :: rest => match u.apply e with
    | .ok e' => u :: e'.succeeded rest
    | .error _ => e.succeeded rest

end Event

/-! ### One update -/

namespace Event

variable {e : Event}

theorem nameViolation_of_mem {name : String} (h : name ∈ reservedNames) :
    nameViolation name = some (.reservedName name) := by
  have hempty : name ≠ "" := by
    rintro rfl
    exact absurd h (by decide)
  rw [nameViolation_eq, if_neg hempty, if_pos h]

theorem valid_erase (he : e.Valid) (name : String) :
    { e with attributes := e.attributes.erase name }.Valid := by
  refine he.of_subset ?_ (fun _ hm => NameMap.mem_of_mem_erase hm) e.data
  rw [NameMap.names_erase]
  exact he.names_nodup.filter _

theorem valid_payload (he : e.Valid) (data : Option EventData) : { e with data }.Valid :=
  he.of_subset he.names_nodup (fun _ hm => hm) data

theorem check_of_valid (he : e.Valid) : e.check = .ok e :=
  check_eq_ok_iff.mpr ⟨(valid_iff.mp he).1, rfl⟩

end Event

namespace Update

variable {e : Event} {u : Update}

/-- The event that an update makes. -/
def result (e : Event) : Update → Event
  | set name value => { e with attributes := e.attributes.insert name value }
  | unset name => { e with attributes := e.attributes.erase name }
  | payload data => { e with data }

/-- The rule that an update breaks. -/
def violation? : Update → Option Violation
  | set name _ => nameViolation name
  | _ => none

/-- How the violation of an update is raised. -/
def refusal : Violation → Error
  | .reservedName name => .reservedName name
  | violation => .invalid [violation]

/-- **One update** makes its event, unless it sets an attribute whose name is empty or reserved. -/
theorem apply_eq (he : e.Valid) (u : Update) :
    u.apply e = match u.violation? with
      | none => .ok (u.result e)
      | some violation => .error (refusal violation) := by
  cases u with
  | set name value =>
    show e.offerAttribute (.text name) (.attributeValue value) = _
    rw [Event.offerAttribute_attributeValue he.names_nodup, Event.withAttribute, Event.check,
      Event.violations_insert he, violation?]
    by_cases hreserved : name ∈ reservedNames
    · rw [if_pos hreserved, Event.nameViolation_of_mem hreserved]
      rfl
    · rw [if_neg hreserved, Event.nameViolation_eq, if_neg hreserved]
      by_cases hempty : name = ""
      · rw [if_pos hempty]
        rfl
      · rw [if_neg hempty]
        rfl
  | unset name =>
    show ({ e with attributes := e.attributes.erase name }.check).mapError Error.invalid = _
    rw [Event.check_of_valid (Event.valid_erase he name)]
    rfl
  | payload data =>
    show e.offerData ((data.map .eventData).getD .null) = _
    rw [Event.offerData_eventData he.names_nodup, Event.withData,
      Event.check_of_valid (Event.valid_payload he data)]
    rfl

theorem apply_eq_ok_iff (he : e.Valid) {e' : Event} :
    u.apply e = .ok e' ↔ u.violation? = none ∧ u.result e = e' := by
  rw [apply_eq he]
  cases u.violation? <;> simp

theorem valid_result (he : e.Valid) (hu : u.Valid) (h : u.violation? = none) :
    (u.result e).Valid := by
  cases u with
  | set name value => exact Event.valid_insert he h hu
  | unset name => exact Event.valid_erase he name
  | payload data => exact Event.valid_payload he data

theorem required_result (e : Event) (u : Update) (f : RequiredField) :
    (u.result e).required f = e.required f := by
  cases u <;> cases f <;> rfl

theorem lookup_result (e : Event) (u : Update) (name : String) :
    (u.result e).attributes.lookup name = (u.under name).getD (e.attributes.lookup name) := by
  cases u with
  | set name' value =>
    rw [result, NameMap.lookup_insert, under]
    by_cases h : name = name'
    · rw [if_pos h, if_pos h.symm, Option.getD_some]
    · rw [if_neg h, if_neg (Ne.symm h), Option.getD_none]
  | unset name' =>
    rw [result, NameMap.lookup_erase, under]
    by_cases h : name = name'
    · rw [if_pos h, if_pos h.symm, Option.getD_some]
    · rw [if_neg h, if_neg (Ne.symm h), Option.getD_none]
  | payload data => rfl

theorem data_result (e : Event) (u : Update) : (u.result e).data = u.payload?.getD e.data := by
  cases u <;> rfl

/-- An attribute is set exactly as the constructor takes a map that holds it, and is refused for
the same rules. -/
theorem apply_set_eq_construct (he : e.Valid) (name : String) (value : AttributeValue) :
    ((set name value).apply e).mapError Error.violations
      = ({ e with attributes := e.attributes.insert name value }.construct).mapError
          Error.violations := by
  rw [apply_eq he, Event.construct_eq (NameMap.nodup_insert he.names_nodup name value), Event.check,
    Event.violations_insert he]
  show Except.mapError _ (match nameViolation name with
    | none => _
    | some violation => _) = _
  cases h : nameViolation name with
  | none => rfl
  | some violation => cases violation <;> rfl

end Update

/-! ### Histories -/

theorem lastUnder_cons (name : String) (u : Update) (rest : List Update) :
    lastUnder name (u :: rest) = (lastUnder name rest).or (u.under name) := by
  rw [lastUnder, List.reverse_cons, List.findSome?_append, List.findSome?_singleton]
  rfl

theorem lastPayload_cons (u : Update) (rest : List Update) :
    lastPayload (u :: rest) = (lastPayload rest).or u.payload? := by
  rw [lastPayload, List.reverse_cons, List.findSome?_append, List.findSome?_singleton]
  rfl

namespace Event

variable {e : Event} {u : Update} {updates : List Update}

/-- A history goes on from the event of its first update, or from where it was. -/
theorem after_cons (he : e.Valid) (u : Update) (rest : List Update) :
    (u.violation? = none ∧ e.after (u :: rest) = (u.result e).after rest
        ∧ e.succeeded (u :: rest) = u :: (u.result e).succeeded rest)
      ∨ (u.violation? ≠ none ∧ e.after (u :: rest) = e.after rest
        ∧ e.succeeded (u :: rest) = e.succeeded rest) := by
  rw [after, succeeded, Update.apply_eq he]
  cases h : u.violation? with
  | none => exact .inl ⟨rfl, rfl, rfl⟩
  | some violation => exact .inr ⟨nofun, rfl, rfl⟩

/-- What every history keeps, and what it leaves. -/
structure AfterUpdates (e : Event) (updates : List Update) : Prop where
  valid : (e.after updates).Valid
  required : ∀ f, (e.after updates).required f = e.required f
  lookup : ∀ name, (e.after updates).attributes.lookup name
    = (lastUnder name (e.succeeded updates)).getD (e.attributes.lookup name)
  data : (e.after updates).data = (lastPayload (e.succeeded updates)).getD e.data

/-- By induction on the history, whose first update changes the event from which the rest starts. -/
theorem afterUpdates (he : e.Valid) (hupdates : ∀ u ∈ updates, u.Valid) :
    e.AfterUpdates updates := by
  induction updates generalizing e with
  | nil => exact ⟨he, fun _ => rfl, fun _ => rfl, rfl⟩
  | cons u rest ih =>
    obtain ⟨hu, hrest⟩ := List.forall_mem_cons.mp hupdates
    obtain ⟨hbreaks, hafter, hsucceeded⟩ | ⟨-, hafter, hsucceeded⟩ := after_cons he u rest
    · obtain ⟨hvalid, hrequired, hlookup, hdata⟩ := ih (Update.valid_result he hu hbreaks) hrest
      constructor
      · rw [hafter]
        exact hvalid
      · intro f
        rw [hafter, hrequired, Update.required_result]
      · intro name
        rw [hafter, hsucceeded, hlookup, lastUnder_cons, Update.lookup_result]
        cases lastUnder name ((u.result e).succeeded rest) <;> rfl
      · rw [hafter, hsucceeded, hdata, lastPayload_cons, Update.data_result]
        cases lastPayload ((u.result e).succeeded rest) <;> rfl
    · obtain ⟨hvalid, hrequired, hlookup, hdata⟩ := ih he hrest
      constructor
      · rw [hafter]
        exact hvalid
      · rw [hafter]
        exact hrequired
      · rw [hafter, hsucceeded]
        exact hlookup
      · rw [hafter, hsucceeded]
        exact hdata

/-- **A history of updates is a finite map.** Whatever was done to a valid event, it is valid. To
set an attribute fails next exactly if the name is empty or reserved, with the violations that the
constructor reports for the map with that attribute, and no other update fails. The required
attributes are those of the first event. Each name has what the last successful update about it left
under it, and the payload is the last that was given. So two histories with the same final map and
payload end in the same event, which has one deterministic encoding. -/
theorem after_as_map (he : e.Valid) (hupdates : ∀ u ∈ updates, u.Valid) :
    (e.after updates).Valid
    ∧ (∀ name value,
        (name = "" →
          (Update.set name value).apply (e.after updates) = .error (.invalid [.emptyName]))
        ∧ (name ∈ reservedNames →
          (Update.set name value).apply (e.after updates) = .error (.reservedName name))
        ∧ (name ≠ "" → name ∉ reservedNames →
          ∃ next, (Update.set name value).apply (e.after updates) = .ok next)
        ∧ ((Update.set name value).apply (e.after updates)).mapError Error.violations
          = ({ e.after updates with attributes := (e.after updates).attributes.insert name value
              }.construct).mapError Error.violations)
    ∧ (∀ name, ∃ next, (Update.unset name).apply (e.after updates) = .ok next)
    ∧ (∀ data, ∃ next, (Update.payload data).apply (e.after updates) = .ok next)
    ∧ (∀ f, (e.after updates).required f = e.required f)
    ∧ (∀ name, (e.after updates).attributes.lookup name
        = (lastUnder name (e.succeeded updates)).getD (e.attributes.lookup name))
    ∧ (e.after updates).data = (lastPayload (e.succeeded updates)).getD e.data
    ∧ ∀ others : List Update, (∀ u ∈ others, u.Valid) →
        (e.after others).attributes.Equiv (e.after updates).attributes →
        (e.after others).data = (e.after updates).data →
        (e.after others).Same (e.after updates)
          ∧ ∀ c : Codec, c.deterministic = true →
            c.encode (e.after others) = c.encode (e.after updates) := by
  obtain ⟨hvalid, hrequired, hlookup, hdata⟩ := afterUpdates he hupdates
  refine ⟨hvalid, fun name value => ⟨?_, ?_, ?_, Update.apply_set_eq_construct hvalid name value⟩,
    fun name => ⟨_, (Update.apply_eq_ok_iff hvalid).mpr ⟨rfl, rfl⟩⟩,
    fun data => ⟨_, (Update.apply_eq_ok_iff hvalid).mpr ⟨rfl, rfl⟩⟩, hrequired, hlookup, hdata, ?_⟩
  · rintro rfl
    rw [Update.apply_eq hvalid]
    rfl
  · intro hreserved
    rw [Update.apply_eq hvalid, Update.violation?, nameViolation_of_mem hreserved]
    rfl
  · intro hempty hreserved
    exact ⟨_, (Update.apply_eq_ok_iff hvalid).mpr
      ⟨nameViolation_eq_none_iff.mpr ⟨hempty, hreserved⟩, rfl⟩⟩
  · intro others hothers hattributes hpayload
    obtain ⟨hvalid', hrequired', -, -⟩ := afterUpdates he hothers
    have hsame : (e.after others).Same (e.after updates) :=
      ⟨fun f => (hrequired' f).trans (hrequired f).symm, hattributes, hpayload⟩
    refine ⟨hsame, fun c hc => ?_⟩
    rw [Codec.encode, Codec.encode, Codec.message_eq_of_same hc hvalid' hvalid hsame]

/-- A name that is set, unset and set again, and two names that are refused. -/
theorem after_as_map_refusals :
    let e : Event :=
      { id := "1", source := "/", specVersion := "1.0", type := "t"
        attributes := [("a", .integer 1)], data := some (.text "x") }
    let updates : List Update :=
      [.set "b" (.boolean true), .set "id" (.string "2"), .unset "a", .set "" (.integer 3),
       .set "a" (.integer 2), .payload none]
    let others : List Update := [.payload none, .set "a" (.integer 2), .set "b" (.boolean true)]
    (e.after updates).Valid ∧ (e.after updates).attributes.lookup "a" = some (.integer 2)
      ∧ (e.after updates).data = none
      ∧ (Update.set "type" (.integer 1)).apply (e.after updates) = .error (.reservedName "type")
      ∧ ({ e.after updates with
          attributes := (e.after updates).attributes.insert "type" (.integer 1)
            }.construct).mapError Error.violations = .error [.reservedName "type"]
      ∧ (e.after others).Same (e.after updates)
      ∧ ({} : Codec).encode (e.after others) = ({} : Codec).encode (e.after updates) := by
  intro e updates others
  have he : e.Valid := by decide
  have hupdates : ∀ u ∈ updates, u.Valid := by decide
  have hothers : ∀ u ∈ others, u.Valid := by decide
  obtain ⟨hvalid, hset, -, -, -, hlookup, hdata, hunique⟩ := after_as_map he hupdates
  obtain ⟨-, hreserved, -, hconstruct⟩ := hset "type" (.integer 1)
  have hrefused := hreserved (by decide)
  rw [hrefused] at hconstruct
  obtain ⟨hsame, hencode⟩ := hunique others hothers (by decide) rfl
  exact ⟨hvalid, hlookup "a", hdata, hrefused, hconstruct.symm, hsame, hencode {} rfl⟩

end Event

end CloudEvents
