import CloudEvents.Proofs.RoundTrip
import CloudEvents.Proofs.WireConstruction

/-!
# Two gates into an event

An event comes into being by construction or by decoding, and both refuse what breaks the rules. The
decoder has a rule of its own in front: required attributes that are empty are reported by their
names, all of them and nothing else. Only when there are none does it come to the rules of
construction, and then it reports what construction reports.

So the two gates are compared on the same parts, offered to the one as arguments and to the other as
bytes. The parts need not make a valid event: texts may be empty, and one name may be inadmissible.
Of the bytes nothing is asked but that each part has its record. Empty texts may be written or left
out, and entries may stand in any order, which is also why there is to be no more than one bad name,
since names are reported in the order in which they stand.

## Main results

* `EventMessage.toEvent_ofEvent` — what becomes of a message that an event could have, valid or not
* `Event.violations_eq_of_perm` — one bad name is reported wherever it stands
* `Codec.decode_records_iff_construct` — the two gates are one
-/

namespace CloudEvents

/-! ### Messages of events that may break rules -/

/-- The required attributes that are empty, in their order. -/
def Event.missing (e : Event) : List RequiredField :=
  RequiredField.all.filter fun f => e.required f = ""

theorem EventMessage.toEvent_ofEvent {e : Event} (hv : ∀ entry ∈ e.attributes, entry.2.Valid) :
    (ofEvent e).toEvent
      = if e.missing = [] then e.check.mapError .invalid else .error (.missing e.missing) := by
  have hunknown : (ofEvent e).unknownFault = none := rfl
  have hmissing : (ofEvent e).missing = e.missing := by
    simp only [missing, Event.missing, required_ofEvent]
  have hattributes : (ofEvent e).interpretAttributes = .ok e.attributes :=
    mapM_toValue_eq_ok_iff.mpr ⟨rfl, hv⟩
  rw [toEvent_eq, hunknown, hmissing, hattributes]
  rfl

/-- An event with an empty required attribute breaks a rule. -/
theorem Event.violations_ne_nil_of_missing {e : Event} (h : e.missing ≠ []) :
    e.violations ≠ [] := by
  intro hnil
  obtain ⟨hrequired, -⟩ := violations_eq_nil_iff.mp hnil
  exact h (List.filter_eq_nil_iff.mpr fun f _ => by simpa using hrequired f)

/-! ### One bad name -/

/-- A list of at most one element has one order. -/
theorem eq_of_perm_of_length_le_one {α : Type} {l l' : List α} (hperm : l'.Perm l)
    (h : l.length ≤ 1) : l' = l := by
  match l with
  | [] => exact hperm.eq_nil
  | [a] => exact hperm.eq_singleton
  | _ :: _ :: _ =>
    simp only [List.length_cons] at h
    omega

/-- The attributes do not show in the required ones. -/
theorem Event.required_with (e : Event) (entries : NameMap AttributeValue) :
    { e with attributes := entries }.required = e.required := by
  funext f
  cases f <;> rfl

theorem Event.violations_eq_of_perm {e : Event} {entries : NameMap AttributeValue}
    (hentries : entries.Perm e.attributes)
    (hone : e.attributes.names.countP (fun name => name = "" ∨ name ∈ reservedNames) ≤ 1) :
    { e with attributes := entries }.violations = e.violations := by
  have hbad (name : String) : (nameViolation name).isSome
      = decide (name = "" ∨ name ∈ reservedNames) := by
    rw [nameViolation_eq]
    by_cases hempty : name = "" <;> by_cases hreserved : name ∈ reservedNames <;>
      simp [hempty, hreserved]
  have hlength : (e.attributes.names.filterMap nameViolation).length ≤ 1 := by
    rw [List.length_filterMap_eq_countP, funext hbad]
    exact hone
  have hnames : (NameMap.names entries).filterMap nameViolation
      = e.attributes.names.filterMap nameViolation :=
    eq_of_perm_of_length_le_one ((hentries.map Prod.fst).filterMap nameViolation) hlength
  rw [violations, violations, hnames, required_with]

/-! ### The gates -/

namespace Codec

variable {c : Codec} {e : Event} {written : List RequiredField}

/-- Parts that are written as bytes pass two tests: nothing is missing, and no rule is broken. -/
theorem decode_records (hnodup : e.attributes.names.Nodup)
    (hvalues : ∀ entry ∈ e.attributes, entry.2.Valid)
    (hwritten : ∀ f, e.required f ≠ "" → f ∈ written)
    (hfits : ∀ r ∈ e.records written, r.Fits maxDepth)
    (hsize : (encodeRecords (e.records written)).length ≤ c.maxMessageSize) :
    c.decode (encodeRecords (e.records written))
      = if e.missing = [] then
          e.check.mapError fun violations => { fault := .invalid violations }
        else .error { fault := .missing e.missing } := by
  have hparse : c.parse .event (EventMessage.parse maxDepth) (encodeRecords (e.records written))
      = .ok (.ofEvent e) :=
    parse_eq_ok_iff.mpr
      ⟨hsize, EventMessage.parse_records hnodup hvalues hwritten hfits⟩
  rw [decode, hparse]
  show (EventMessage.ofEvent e).toEvent.mapError _ = _
  rw [EventMessage.toEvent_ofEvent hvalues]
  by_cases hmissing : e.missing = []
  · rw [if_pos hmissing, if_pos hmissing]
    cases e.check <;> rfl
  · rw [if_neg hmissing, if_neg hmissing]
    rfl

/-- Both gates open, or neither does. -/
theorem decode_records_cases (hnodup : e.attributes.names.Nodup)
    (hvalues : ∀ entry ∈ e.attributes, entry.2.Valid)
    (hone : e.attributes.names.countP (fun name => name = "" ∨ name ∈ reservedNames) ≤ 1)
    (hwritten : ∀ f, e.required f ≠ "" → f ∈ written) {entries : NameMap AttributeValue}
    (hentries : entries.Perm e.attributes) {bytes : Bytes}
    (hbytes : bytes = encodeRecords ({ e with attributes := entries }.records written))
    (hsize : bytes.length ≤ c.maxMessageSize) (hwire : bytes.length ≤ maxLength) :
    (e.construct = .ok e ∧ c.decode bytes = .ok { e with attributes := entries })
      ∨ (e.construct = .error (.invalid e.violations) ∧ c.decode bytes
        = .error
          { fault := if e.missing = [] then .invalid e.violations else .missing e.missing }) := by
  subst hbytes
  have hnames : (NameMap.names entries).Nodup := (hentries.map Prod.fst).nodup_iff.mpr hnodup
  have hvalues' : ∀ entry ∈ entries, entry.2.Valid :=
    fun entry hm => hvalues entry (hentries.mem_iff.mp hm)
  have hwritten' : ∀ f, { e with attributes := entries }.required f ≠ "" → f ∈ written := by
    rw [Event.required_with]
    exact hwritten
  have hmissing : { e with attributes := entries }.missing = e.missing := by
    rw [Event.missing, Event.missing, Event.required_with]
  have hdecode := decode_records hnames hvalues' hwritten'
    (Event.fits_records hwire) hsize
  rw [hmissing, Event.check, Event.violations_eq_of_perm hentries hone] at hdecode
  have hconstruct := Event.construct_eq hnodup
  rw [Event.check] at hconstruct
  by_cases hvalid : e.violations = []
  · have hpresent : e.missing = [] := Decidable.of_not_not fun hne =>
      Event.violations_ne_nil_of_missing hne hvalid
    have haccept {e' : Event} : Violation.accept e' e.violations = .ok e' :=
      Violation.accept_eq_ok_iff.mpr ⟨hvalid, rfl⟩
    rw [if_pos hpresent, haccept] at hdecode
    rw [haccept] at hconstruct
    exact Or.inl ⟨hconstruct, hdecode⟩
  · have hrefuse {e' : Event} : Violation.accept e' e.violations = .error e.violations :=
      Violation.accept_eq_error_iff.mpr ⟨hvalid, rfl⟩
    rw [hrefuse] at hconstruct hdecode
    refine Or.inr ⟨hconstruct, hdecode.trans ?_⟩
    split <;> rfl

/-- **The wire gate is the construction gate.** Parts of an event that are written as bytes decode
exactly when they make an event, and to the same event. When they make none, decoding fails with the
empty required attributes if there are any, and otherwise with what construction reports. The bytes
are within the limit of the codec, and below 2 GiB, where the wire format itself ends. -/
theorem decode_records_iff_construct (c : Codec) {e : Event}
    (hnodup : e.attributes.names.Nodup) (hvalues : ∀ entry ∈ e.attributes, entry.2.Valid)
    (hone : e.attributes.names.countP (fun name => name = "" ∨ name ∈ reservedNames) ≤ 1)
    {written : List RequiredField} (hwritten : ∀ f, e.required f ≠ "" → f ∈ written)
    {entries : NameMap AttributeValue} (hentries : entries.Perm e.attributes) {bytes : Bytes}
    (hbytes : bytes = encodeRecords ({ e with attributes := entries }.records written))
    (hsize : bytes.length ≤ c.maxMessageSize) (hwire : bytes.length ≤ maxLength) :
    ((∃ d, c.decode bytes = .ok d) ↔ ∃ e', e.construct = .ok e')
    ∧ (∀ d e', c.decode bytes = .ok d → e.construct = .ok e' → d.Same e')
    ∧ ∀ err, e.construct = .error err →
      ∃ violations err', err = .invalid violations ∧ c.decode bytes = .error err'
        ∧ err'.rejection = .malformedEnvelope ∧ err'.index = none
        ∧ (e.missing ≠ [] → err'.fault.detail = "missing required attribute(s): "
          ++ ", ".intercalate (e.missing.map RequiredField.name))
        ∧ (e.missing = [] → err'.fault.detail = "; ".intercalate (violations.map Violation.message)
          ∧ err'.cause = some (.violations violations)) := by
  obtain ⟨hconstruct, hdecode⟩ | ⟨hconstruct, hdecode⟩ :=
    decode_records_cases hnodup hvalues hone hwritten hentries hbytes hsize hwire
  · have hsame : { e with attributes := entries }.Same e :=
      { required_eq := fun f => congrFun (Event.required_with e entries) f
        attributes_equiv := fun name => (NameMap.equiv_of_perm hnodup hentries.symm name).symm
        data_eq := rfl }
    rw [hconstruct, hdecode]
    refine ⟨⟨fun _ => ⟨e, rfl⟩, fun _ => ⟨_, rfl⟩⟩, ?_, nofun⟩
    rintro d e' ⟨⟩ ⟨⟩
    exact hsame
  · rw [hconstruct, hdecode]
    refine ⟨⟨nofun, nofun⟩, nofun, ?_⟩
    rintro err ⟨⟩
    refine ⟨e.violations, _, rfl, rfl, ?_, rfl, ?_, ?_⟩
    · show Fault.rejection _ = _
      split <;> rfl
    · intro hne
      rw [if_neg hne]
      rfl
    · intro hpresent
      rw [if_pos hpresent]
      exact ⟨rfl, rfl⟩

/-- Three sets of parts, with the entries written backwards: a good one, one with a reserved name,
and one with that name and two empty texts, which alone are reported. -/
theorem decode_records_iff_construct_reported :
    let c : Codec := {}
    let e (text name : String) : Event :=
      { id := "1", source := text, specVersion := "1.0", type := text
        attributes := [("a", .boolean true), (name, .string "x")] }
    let bytes (e : Event) : Bytes :=
      encodeRecords ({ e with attributes := e.attributes.reverse }.records e.present)
    (∃ d, c.decode (bytes (e "s" "b")) = .ok d ∧ d.Same (e "s" "b"))
    ∧ (∃ err, c.decode (bytes (e "s" "id")) = .error err
      ∧ err.fault.detail = "attribute name 'id' is reserved for a required attribute"
      ∧ err.cause = some (.violations [.reservedName "id"]))
    ∧ ∃ err, c.decode (bytes (e "" "id")) = .error err
      ∧ err.fault.detail = "missing required attribute(s): source, type" := by
  intro c e bytes
  have hgate (text name : String) (hgood : (e text name).attributes.names.Nodup
      ∧ (∀ entry ∈ (e text name).attributes, entry.2.Valid)
      ∧ (e text name).attributes.names.countP (fun n => n = "" ∨ n ∈ reservedNames) ≤ 1
      ∧ (bytes (e text name)).length ≤ 1000) :=
    decode_records_iff_construct c hgood.1 hgood.2.1 hgood.2.2.1
      (fun f hne => List.mem_filter.mpr ⟨RequiredField.mem_all f, decide_eq_true hne⟩)
      (List.reverse_perm _) rfl (Nat.le_trans hgood.2.2.2 (by decide))
      (Nat.le_trans hgood.2.2.2 (by decide))
  refine ⟨?_, ?_, ?_⟩
  · obtain ⟨hiff, hsame, -⟩ := hgate "s" "b" (by decide +kernel)
    have hconstruct : (e "s" "b").construct = .ok (e "s" "b") := by
      rw [Event.construct_eq (by decide +kernel)]
      decide +kernel
    obtain ⟨d, hd⟩ := hiff.mpr ⟨_, hconstruct⟩
    exact ⟨d, hd, hsame d _ hd hconstruct⟩
  · obtain ⟨-, -, herror⟩ := hgate "s" "id" (by decide +kernel)
    have hconstruct : (e "s" "id").construct = .error (.invalid [.reservedName "id"]) := by
      rw [Event.construct_eq (by decide +kernel)]
      decide +kernel
    obtain ⟨violations, err, hviolations, herr, -, -, -, hreport⟩ := herror _ hconstruct
    cases hviolations
    obtain ⟨hdetail, hcause⟩ := hreport (by decide +kernel)
    exact ⟨err, herr, hdetail.trans (by decide +kernel), hcause⟩
  · obtain ⟨-, -, herror⟩ := hgate "" "id" (by decide +kernel)
    have hconstruct : (e "" "id").construct
        = .error (.invalid [.required .source, .required .type, .reservedName "id"]) := by
      rw [Event.construct_eq (by decide +kernel)]
      decide +kernel
    obtain ⟨violations, err, -, herr, -, -, hmissing, -⟩ := herror _ hconstruct
    exact ⟨err, herr, (hmissing (by decide +kernel)).trans (by decide +kernel)⟩

end Codec

end CloudEvents
