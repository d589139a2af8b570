import CloudEvents.Proofs.Merging
import Mathlib.Logic.ExistsUnique

/-!
# Bytes cut into records

Records do not determine the bytes they were read from: varints may be padded, and a group may hold
anything. Whoever moves records around therefore moves pieces of the bytes, each of which is one
record as it was written. A `Segment` is such a piece.

Cutting is possible wherever reading is, and in one way only. The first record of a sequence ends
where the stack of open groups is empty again, which `exists_first_of_readRecords` finds by the
induction over tokens. A shorter or a longer piece would leave a group open or hold a second record.

## Main definitions

* `Segment` — the bytes of one record
* `Segment.join` — segments one after the other

## Main results

* `Segment.readRecords_join` — segments are read as their records, in their order
* `Segment.existsUnique_join_eq` — accepted bytes are made of segments in exactly one way
-/

namespace CloudEvents

variable {depth : Nat}

/-! ### Where a record ends -/

/-- A record is complete when no group is open any more, and then only. -/
theorem Token.isSome_completed_iff {enclosing enclosing' : List Nat} {t : Token}
    {completed : Option Record} (h : t.step depth enclosing = some (enclosing', completed)) :
    completed.isSome ↔ enclosing' = [] := by
  cases t with
  | whole r =>
    cases enclosing with
    | nil =>
      obtain ⟨-, hnext⟩ := Option.ite_none_left_eq_some.mp h
      cases hnext
      simp
    | cons innermost outer =>
      cases h
      simp
  | groupStart number =>
    obtain ⟨-, hnext⟩ := Option.ite_none_left_eq_some.mp h
    cases hnext
    simp
  | groupEnd number =>
    cases enclosing with
    | nil => cases h
    | cons innermost outer =>
      obtain ⟨-, hnext⟩ := Option.ite_none_right_eq_some.mp h
      cases hnext
      cases enclosing' <;> simp

/-- Bytes that are read hold nothing, with no group open, or begin with one record. -/
theorem exists_first_of_readRecords {enclosing : List Nat} {s : Bytes} {rs : List Record}
    (h : readRecords depth enclosing s = some rs) :
    (enclosing = [] ∧ s = [] ∧ rs = [])
      ∨ ∃ front back r tail, s = front ++ back ∧ rs = r :: tail
        ∧ readRecords depth enclosing front = some [r] ∧ readRecords depth [] back = some tail := by
  induction h using readRecords_induction with
  | nil => exact Or.inl ⟨rfl, rfl, rfl⟩
  | @token enclosing enclosing' s rest t completed tail _ ht hstep hrest ih =>
    obtain ⟨piece, rfl, hpiece⟩ := selfDelimiting_readToken s t rest ht
    have hread (more : Bytes) : readRecords depth enclosing (piece ++ more)
        = (readRecords depth enclosing' more).map (completed.toList ++ ·) := by
      rw [readRecords_of_readToken (hpiece more), hstep, Option.bind_some]
    have hends := Token.isSome_completed_iff hstep
    cases completed with
    | some r =>
      obtain rfl : enclosing' = [] := hends.mp rfl
      refine Or.inr ⟨piece, rest, r, tail, rfl, rfl, ?_, hrest⟩
      have hpiece := hread []
      rwa [List.append_nil, readRecords_nil] at hpiece
    | none =>
      obtain ⟨hopen, -, -⟩ | ⟨front, back, r, tail', rfl, rfl, hfront, hback⟩ := ih
      · have hfalse := hends.mpr hopen
        cases hfalse
      · refine Or.inr ⟨piece ++ front, back, r, tail', ?_, rfl, ?_, hback⟩
        · rw [List.append_assoc]
        · rw [hread, hfront]
          rfl

theorem eq_nil_of_readRecords_eq_nil {s : Bytes} (h : readRecords depth [] s = some []) :
    s = [] := by
  obtain ⟨-, hs, -⟩ | ⟨_, _, _, _, -, hcons, -, -⟩ := exists_first_of_readRecords h
  · exact hs
  · cases hcons

/-! ### Segments -/

/-- The bytes of one record of a message that is not embedded in another. -/
structure Segment where
  bytes : Bytes
  record : Record
  reads : readRecords maxDepth [] bytes = some [record]

namespace Segment

/-- Segments one after the other. -/
def join (segments : List Segment) : Bytes := segments.flatMap bytes

theorem join_cons (segment : Segment) (rest : List Segment) :
    join (segment :: rest) = segment.bytes ++ join rest := rfl

theorem readRecords_join (segments : List Segment) :
    readRecords maxDepth [] (join segments) = some (segments.map record) := by
  induction segments with
  | nil => exact readRecords_nil maxDepth
  | cons segment rest ih =>
    rw [join_cons, readRecords_append segment.reads, ih]
    rfl

theorem exists_join_eq {bytes : Bytes} {rs : List Record}
    (h : readRecords maxDepth [] bytes = some rs) : ∃ segments, join segments = bytes := by
  induction rs generalizing bytes with
  | nil =>
    obtain rfl := eq_nil_of_readRecords_eq_nil h
    exact ⟨[], rfl⟩
  | cons r tail ih =>
    obtain ⟨-, -, hnil⟩ | ⟨front, back, r', tail', rfl, hcons, hfront, hback⟩ :=
      exists_first_of_readRecords h
    · cases hnil
    · cases hcons
      obtain ⟨rest, rfl⟩ := ih hback
      exact ⟨⟨front, r, hfront⟩ :: rest, rfl⟩

/-- A segment goes on to the end of its record and no further. -/
theorem bytes_eq_of_append_eq {first second : Segment} {rest rest' : Bytes}
    (h : first.bytes ++ rest = second.bytes ++ rest') : first.bytes = second.bytes := by
  -- what is left of the longer one after the shorter one would hold no record
  have hshort {short long : Segment} {more : Bytes} (hlong : long.bytes = short.bytes ++ more) :
      short.bytes = long.bytes := by
    have hread := long.reads
    rw [hlong, readRecords_append short.reads] at hread
    obtain ⟨tail, htail, hone⟩ := Option.map_eq_some_iff.mp hread
    obtain ⟨-, rfl⟩ := List.cons.inj hone
    rw [hlong, eq_nil_of_readRecords_eq_nil htail, List.append_nil]
  obtain ⟨more, hmore, -⟩ | ⟨more, hmore, -⟩ := List.append_eq_append_iff.mp h
  · exact hshort hmore
  · exact (hshort hmore).symm

theorem eq_of_bytes_eq {first second : Segment} (h : first.bytes = second.bytes) :
    first = second := by
  obtain ⟨bytes, record, reads⟩ := first
  obtain ⟨bytes', record', reads'⟩ := second
  obtain rfl : bytes = bytes' := h
  have hrecord : [record] = [record'] := Option.some.inj (reads.symm.trans reads')
  cases hrecord
  rfl

theorem bytes_ne_nil (segment : Segment) : segment.bytes ≠ [] := by
  intro hnil
  have hread := segment.reads
  rw [hnil, readRecords_nil] at hread
  cases hread

theorem join_injective {segments segments' : List Segment} (h : join segments = join segments') :
    segments = segments' := by
  induction segments generalizing segments' with
  | nil =>
    cases segments' with
    | nil => rfl
    | cons segment rest => exact absurd (List.append_eq_nil_iff.mp h.symm).1 segment.bytes_ne_nil
  | cons segment rest ih =>
    cases segments' with
    | nil => exact absurd (List.append_eq_nil_iff.mp h).1 segment.bytes_ne_nil
    | cons segment' rest' =>
      rw [join_cons, join_cons] at h
      have hbytes := bytes_eq_of_append_eq h
      obtain rfl := eq_of_bytes_eq hbytes
      rw [ih (List.append_cancel_left h)]

/-- **Accepted bytes are cut into segments in one way.** -/
theorem existsUnique_join_eq {bytes : Bytes} {rs : List Record}
    (h : readRecords maxDepth [] bytes = some rs) : ∃! segments, join segments = bytes := by
  obtain ⟨segments, hjoin⟩ := exists_join_eq h
  exact ⟨segments, hjoin, fun segments' hjoin' => join_injective (hjoin'.trans hjoin.symm)⟩

end Segment

end CloudEvents
