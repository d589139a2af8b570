import CloudEvents.Wire.Varint

/-!
# Records of the wire format

A message on the wire is a sequence of records. A record is a field number and a payload, and the
payload's wire type says how far it extends, so a sequence can be cut into records without knowing
the message it belongs to. This module does exactly that and no more: what a record means is
decided by the message that reads it.

## Contract

`readRecords depth [] s` accepts `s` when it is a complete sequence of records.

* A tag is a varint of at most five bytes whose value fits 32 bits; a length is one of at most
  `maxLength`, and as many bytes have to follow. Padded forms are accepted.
* Other varints take at most ten bytes, and bits above the 64th are dropped.
* A group is a start tag, any records and the end tag of the same number. Its content is skipped
  but has to be well formed, and at most `depth` groups are open at a time.
* Field number zero is refused, except inside a group, where nothing is looked at.

## Implementation notes

Groups nest, yet reading them needs no nested recursion: `readToken` reads one tag with its payload
and never descends, and `Token.step` says what a token does to the stack of open groups. The
recursion that remains is a single loop over tokens, each of which is at least a byte long.

## Main definitions

* `Payload`, `Record` — what a sequence of records is made of
* `Record.encode` — the shortest form of a record
* `Token`, `readToken`, `Token.step` — one step of reading
* `readRecords` — a byte string as a sequence of records
-/

namespace CloudEvents

/-- The value that a record carries. The content of a group is not kept. -/
inductive Payload where
  | varint (value : Nat)
  | fixed64 (bytes : Bytes)
  | delimited (bytes : Bytes)
  | group
  | fixed32 (bytes : Bytes)
  deriving DecidableEq

/-- A field number with a payload. -/
structure Record where
  number : Nat
  payload : Payload
  deriving DecidableEq

/-! ### Writing -/

/-- The number by which a tag announces the form of its payload. -/
def Payload.wireType : Payload → Nat
  | varint _ => 0
  | fixed64 _ => 1
  | delimited _ => 2
  | group => 3
  | fixed32 _ => 5

/-- The bytes that follow a tag. A group is written without content, so only its end tag, of the
field `number`, follows. -/
def Payload.encode (number : Nat) : Payload → Bytes
  | varint value => Varint.encode value
  | fixed64 bytes => bytes
  | delimited bytes => Varint.encode bytes.length ++ bytes
  | group => Varint.encode (8 * number + 4)
  | fixed32 bytes => bytes

/-- The shortest form of a record: its tag and its payload, with minimal varints. -/
def Record.encode (r : Record) : Bytes :=
  Varint.encode (8 * r.number + r.payload.wireType) ++ r.payload.encode r.number

/-- Records one after another. -/
def encodeRecords (rs : List Record) : Bytes := rs.flatMap Record.encode

/-! ### One token -/

/-- What one tag announces: a whole record, or one end of a group. -/
inductive Token where
  | whole (record : Record)
  | groupStart (number : Nat)
  | groupEnd (number : Nat)

/-- The first `n` bytes and the bytes after them, if there are that many. -/
def readExact (n : Nat) (s : Bytes) : Option (Bytes × Bytes) :=
  let front := s.take n
  if front.length = n then some (front, s.drop n) else none

/-- A field number and a wire type. -/
def readTag (s : Bytes) : Option ((Nat × Nat) × Bytes) :=
  (Varint.read 5 s).bind fun (tag, rest) =>
    if tag < UInt32.size then some ((tag / 8, tag % 8), rest) else none

/-- The greatest length that a record may announce, which is where the wire format ends. -/
def maxLength : Nat := 2147483647

/-- A length and as many bytes. -/
def readDelimited (s : Bytes) : Option (Bytes × Bytes) :=
  (Varint.read 5 s).bind fun (length, rest) =>
    if length ≤ maxLength then readExact length rest else none

/-- The token that a tag with this field number and wire type begins. -/
def readPayload (number wireType : Nat) (s : Bytes) : Option (Token × Bytes) :=
  match wireType with
  | 0 => (Varint.read 10 s).map fun (v, rest) => (.whole ⟨number, .varint (v % UInt64.size)⟩, rest)
  | 1 => (readExact 8 s).map fun (b, rest) => (.whole ⟨number, .fixed64 b⟩, rest)
  | 2 => (readDelimited s).map fun (b, rest) => (.whole ⟨number, .delimited b⟩, rest)
  | 3 => some (.groupStart number, s)
  | 4 => some (.groupEnd number, s)
  | 5 => (readExact 4 s).map fun (b, rest) => (.whole ⟨number, .fixed32 b⟩, rest)
  | _ => none

/-- A tag and, unless it bounds a group, its payload. -/
def readToken (s : Bytes) : Option (Token × Bytes) :=
  (readTag s).bind fun ((number, wireType), rest) => readPayload number wireType rest

/-! ### Progress -/

theorem readExact_eq_some_iff {n : Nat} {s front rest : Bytes} :
    readExact n s = some (front, rest) ↔ s = front ++ rest ∧ front.length = n := by
  simp only [readExact, Option.ite_none_right_eq_some, Option.some.injEq, Prod.mk.injEq]
  constructor
  · rintro ⟨hn, rfl, rfl⟩
    exact ⟨(List.take_append_drop n s).symm, hn⟩
  · rintro ⟨rfl, rfl⟩
    simp

theorem length_le_of_readExact {n : Nat} {s front rest : Bytes}
    (h : readExact n s = some (front, rest)) : rest.length ≤ s.length := by
  rw [(readExact_eq_some_iff.1 h).1]
  simp

theorem length_lt_of_readTag {s rest : Bytes} {t : Nat × Nat} (h : readTag s = some (t, rest)) :
    rest.length < s.length := by
  obtain ⟨⟨tag, rest'⟩, hr, h⟩ := Option.bind_eq_some_iff.1 h
  obtain ⟨-, h⟩ := Option.ite_none_right_eq_some.1 h
  cases h
  exact Varint.length_lt_of_read hr

theorem length_le_of_readPayload {number wireType : Nat} {s rest : Bytes} {t : Token}
    (h : readPayload number wireType s = some (t, rest)) : rest.length ≤ s.length := by
  unfold readPayload at h
  split at h
  · obtain ⟨⟨v, r⟩, hr, he⟩ := Option.map_eq_some_iff.1 h
    cases he
    exact Nat.le_of_lt (Varint.length_lt_of_read hr)
  · obtain ⟨⟨b, r⟩, hr, he⟩ := Option.map_eq_some_iff.1 h
    cases he
    exact length_le_of_readExact hr
  · obtain ⟨⟨b, r⟩, hr, he⟩ := Option.map_eq_some_iff.1 h
    cases he
    obtain ⟨⟨n, r'⟩, hv, hr⟩ := Option.bind_eq_some_iff.1 hr
    have := Varint.length_lt_of_read hv
    have := length_le_of_readExact (Option.ite_none_right_eq_some.1 hr).2
    omega
  · cases h
    exact Nat.le_refl _
  · cases h
    exact Nat.le_refl _
  · obtain ⟨⟨b, r⟩, hr, he⟩ := Option.map_eq_some_iff.1 h
    cases he
    exact length_le_of_readExact hr
  · cases h

/-- Every token is at least a byte long. -/
theorem length_lt_of_readToken {s rest : Bytes} {t : Token} (h : readToken s = some (t, rest)) :
    rest.length < s.length := by
  obtain ⟨⟨⟨number, wireType⟩, rest'⟩, ht, h⟩ := Option.bind_eq_some_iff.1 h
  have := length_lt_of_readTag ht
  have := length_le_of_readPayload h
  omega

/-! ### Sequences of records -/

/-- What a token does below the open groups `enclosing`, innermost first: the groups open after it,
and the record it completes outside all of them. -/
def Token.step (depth : Nat) (enclosing : List Nat) : Token → Option (List Nat × Option Record)
  | whole r =>
    if !enclosing.isEmpty then some (enclosing, none)
    else if r.number = 0 then none else some ([], some r)
  | groupStart number =>
    if (enclosing.isEmpty && number == 0) || depth ≤ enclosing.length then none
    else some (number :: enclosing, none)
  | groupEnd number =>
    match enclosing with
    | [] => none
    | innermost :: outer =>
      if number = innermost then
        some (outer, if outer.isEmpty then some ⟨number, .group⟩ else none)
      else none

/-- The records of `s`, read below the open groups `enclosing`; none if `s` is not well formed, ends
inside a record or leaves a group open. -/
def readRecords (depth : Nat) (enclosing : List Nat) (s : Bytes) : Option (List Record) :=
  if s.isEmpty then
    if enclosing.isEmpty then some [] else none
  else
    match h : readToken s with
    | none => none
    | some (token, rest) =>
      have := length_lt_of_readToken h
      (token.step depth enclosing).bind fun (enclosing, completed) =>
        (readRecords depth enclosing rest).map (completed.toList ++ ·)
termination_by s.length

end CloudEvents
