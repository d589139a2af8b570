import CloudEvents.Candidate.Display
import CloudEvents.Candidate.Entries
import CloudEvents.Construction.Built

/-!
# Reading fields

A reader makes a typed value of a candidate, or reports the one issue that the candidate has.
Readers never convert: a truth value is not an integer, and a byte string that may change is not a
byte string.

The fields of a value are read by name from a dictionary. Fields that are missing and fields that
are not expected are issues like any other, the latter in the order in which they were given and
after all the others.

## Main definitions

* `Candidate.readText`, `Candidate.readInteger`, `Candidate.readBytes`, `Candidate.readName`,
  `Candidate.readModel`
* `Entries.required`, `Entries.optional`, `Entries.nothingBut`
-/

namespace CloudEvents

/-! ### Readers -/

namespace Candidate

def readText (c : Candidate) : Built String :=
  match c.text? with
  | some value => .value value
  | none => .issue .stringType

def readInteger : Candidate → Built Int
  | int value => .value value
  | _ => .issue .intType

def readBytes : Candidate → Built Bytes
  | bytes value => .value value
  | _ => .issue .bytesType

/-- A value that is looked up by its name. The name is a text, or a byte string that holds one. -/
def readName {α : Type} (ofName? : String → Option α) (c : Candidate) : Built α :=
  let name := match c with
    | bytes value | byteArray value => value.toText?
    | c => c.text?
  match name.bind ofName? with
  | some a => .value a
  | none => .issue .unknownName

/-- A built value, or one that is built from the dictionary of its fields. -/
def readModel {α : Type} (built? : Candidate → Option α) (build : Entries → Built α) :
    Candidate → Built α
  | dict fields => build fields
  | c => match built? c with
    | some a => .value a
    | none => .issue .modelType

/-- How reports name the entry of a key: by the integer that it counts as, if it counts as one of 64
bits, else by its text. -/
def step (key : Candidate) : Step :=
  match key.text?, key.integer? with
  | some name, _ => .field name
  | none, some n => if -9223372036854775808 ≤ n ∧ n ≤ 9223372036854775807 then .index n
    else .field key.quoted
  | none, none => .field key.quoted

end Candidate

/-! ### Fields -/

namespace Entries

variable {α : Type}

/-- A field that has to be there. -/
def required (name : String) (read : Candidate → Built α) (fields : Entries) : Built α :=
  (match fields.lookup name with
  | some c => read c
  | none => .issue .missing).under (.field name)

/-- A field with a default. -/
def optional (name : String) (default : α) (read : Candidate → Built α) (fields : Entries) :
    Built α :=
  match fields.lookup name with
  | some c => (read c).under (.field name)
  | none => .value default

/-- The issue of a key that is not the name of an expected field. -/
def keyIssue (expected : List String) (key : Candidate) : Option Issue :=
  match key.text? with
  | some name => if name ∈ expected then none else some ⟨[.field name], .extraForbidden⟩
  | none => some ⟨[key.step], .invalidKey⟩

/-- No fields beside the expected ones. -/
def nothingBut (expected : List String) (fields : Entries) : Built Unit :=
  match fields.filterMap fun entry => keyIssue expected entry.1 with
  | [] => .value ()
  | issues => .misshapen issues

end Entries

end CloudEvents
