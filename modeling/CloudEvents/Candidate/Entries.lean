import CloudEvents.Candidate.Basic

/-!
# Candidates as containers

Three questions are asked of a candidate that is to serve as a container: which elements it has
(`Candidate.items?`), which of its parts may be keys (`Candidate.isHashable`), and which dictionary
it makes (`Candidate.toEntries`). A dictionary keeps the place of a key that comes again and takes
its later value. Keys are compared as values, and numbers of all types by their exact value: a truth
value is the number that it counts as, and a floating-point number equals the integer that it is.

## Main definitions

* `Candidate.same` — equality as a value
* `Candidate.isHashable` — candidates that may be keys
* `Entries`, `Entries.insert`, `Entries.add`, `Entries.collect` — dictionaries
* `Candidate.items?`, `Candidate.toEntries` — any candidate as a sequence, and as a dictionary
-/

namespace CloudEvents

namespace Candidate

/-! ### Equality -/

/-- The integer that a candidate counts as. -/
def integer? : Candidate → Option Int
  | bool value => some (if value then 1 else 0)
  | int value => some value
  | _ => none

/-- The number that a candidate counts as, if it is finite. -/
def rational? : Candidate → Option Rat
  | float value => value.rational?
  | c => c.integer?.map fun n => (n : Rat)

/-- Equality of two candidates without parts. -/
def sameScalar : Candidate → Candidate → Bool
  | null, null => true
  | float a, float b => a.same b
  | bytes a, bytes b | bytes a, byteArray b | byteArray a, bytes b | byteArray a, byteArray b =>
    a = b
  | dateTime a, dateTime b => a.same b
  | timestamp a, timestamp b => a = b
  | attributeValue a, attributeValue b => a = b
  | structuredData a, structuredData b => a = b
  | eventData a, eventData b => a = b
  | event a, event b => a.same b
  | batch a, batch b => a.same b
  | a, b => match a.text?, b.text? with
    | some s, some t => s = t
    | _, _ => match a.rational?, b.rational? with
      | some x, some y => x = y
      | _, _ => false

mutual

/-- Equality of candidates: sequences place by place, dictionaries key by key. -/
def same : Candidate → Candidate → Bool
  | list a, list b => sameAll a b
  | tuple a, tuple b => sameAll a b
  | dict a, dict b => a.length == b.length && sameEntries a b
  | a, b => sameScalar a b

def sameAll : List Candidate → List Candidate → Bool
  | [], [] => true
  | a :: as, b :: bs => same a b && sameAll as bs
  | _, _ => false

def sameEntries : List (Candidate × Candidate) → List (Candidate × Candidate) → Bool
  | [], _ => true
  | (key, value) :: rest, others =>
    others.any (fun other => same key other.1 && same value other.2) && sameEntries rest others

end

theorem same_text {a b : String} : same (text a) (text b) = decide (a = b) := by
  simp [same, sameScalar, text?]

mutual

/-- Candidates that may be keys: all but those that may change, and what contains them. -/
def isHashable : Candidate → Bool
  | byteArray _ | list _ | dict _ => false
  | tuple elements => allHashable elements
  | _ => true

def allHashable : List Candidate → Bool
  | [] => true
  | element :: rest => isHashable element && allHashable rest

end

end Candidate

/-! ### Dictionaries -/

/-- The entries of a dictionary, in order. -/
abbrev Entries := List (Candidate × Candidate)

namespace Entries

/-- Sets the entry of a key: in its place if the key is there, at the end if it is new. -/
def insert (key value : Candidate) : Entries → Entries
  | [] => [(key, value)]
  | entry :: rest =>
    if entry.1.same key then (entry.1, value) :: rest else entry :: insert key value rest

/-- Takes in one more pair, the key of which has to be one that can be a key. -/
def add (entries : Entries) (pair : Candidate × Candidate) : Except Misuse Entries :=
  if pair.1.isHashable then .ok (insert pair.1 pair.2 entries) else .error .notHashable

/-- The dictionary of pairs that come one after the other. -/
def collect (pairs : List (Candidate × Candidate)) : Except Misuse Entries := pairs.foldlM add []

/-- The entries whose keys are these names. -/
def ofFields (fields : List (String × Candidate)) : Entries :=
  fields.map fun (name, value) => (.text name, value)

/-- The value under a name. -/
def lookup (name : String) (entries : Entries) : Option Candidate :=
  (entries.find? fun entry => entry.1.isText name).map Prod.snd

theorem lookup_ofFields (name : String) (fields : List (String × Candidate)) :
    (ofFields fields).lookup name = List.lookup name fields := by
  induction fields with
  | nil => rfl
  | cons field rest ih =>
    have hk : (Candidate.text field.1).isText name = decide (field.1 = name) := by
      simp [Candidate.isText, Candidate.text?]
    rw [NameMap.lookup_cons, ← ih]
    simp only [ofFields, lookup, List.map_cons, List.find?_cons, hk]
    by_cases h : name = field.1
    · simp [h]
    · simp [h, Ne.symm h]

end Entries

/-! ### Elements -/

namespace Candidate

/-- The elements that come when a candidate is traversed, unless it cannot be. -/
def items? (c : Candidate) : Option (List Candidate) :=
  match c with
  | text _ | attributeKind _ | dataKind _ =>
    c.text?.map fun value => value.toList.map fun c => .text c.toString
  | bytes value | byteArray value => some (value.map fun b => .int b.toNat)
  | list elements | tuple elements => some elements
  | dict entries => some (entries.map Prod.fst)
  | batch value => some (value.events.map .event)
  | _ => c.fields?.map fun fields => fields.map fun (name, value) => .tuple [.text name, value]

/-- The key and the value that an element of a sequence stands for. -/
def toPair (c : Candidate) : Except Misuse (Candidate × Candidate) :=
  match c.items? with
  | some [key, value] => .ok (key, value)
  | some _ => .error .notAPair
  | none => .error .notIterable

/-- The dictionary that a candidate makes: a dictionary itself, any other container by its pairs. -/
def toEntries : Candidate → Except Misuse Entries
  | dict entries => .ok entries
  | c =>
    match c.items? with
    | none => .error .notIterable
    | some elements => elements.foldlM (fun entries element => do entries.add (← element.toPair)) []

end Candidate

end CloudEvents
