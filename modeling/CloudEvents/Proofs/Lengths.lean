import CloudEvents.Proofs.Spellings

/-!
# Lengths

Bytes that are read are at least as long as the records that they are read as. A varint may be
padded and a group may hold records that nobody keeps, but nothing takes less room than its written
form (`length_encodeRecords_le`). So whatever a message is made of on reading can be measured
against the bytes, record by record: if no record raises a measure by more than its own length, no
body does (`measure_le_of_mergeMessage`).

What merging does to lengths comes down to varints. Two embedded messages that are merged into one
need one length in place of two, and the length of a sum takes no more bytes than the lengths of its
terms (`Varint.length_encode_add_le`).

## Main definitions

* `framedLength`, `framedIfHeld`, `lengthUnless` — records that are embedded, held or left out

## Main results

* `Varint.length_encode_mono`, `Varint.length_encode_add_le` — the lengths of varints
* `length_encodeRecords_le` — records are no longer than the bytes that they are read from
* `measure_le_of_mergeMessage` — from the step to the run
* `framedIfHeld_le` — embedded messages that are merged
-/

namespace CloudEvents

variable {depth : Nat}

/-! ### Lengths of varints -/

namespace Varint

theorem length_encode_pos (n : Nat) : 0 < (encode n).length :=
  List.length_pos_iff.mpr (encode_ne_nil n)

theorem length_encode_of_lt {n : Nat} (h : n < 128) : (encode n).length = 1 := by
  rw [encode, if_pos h]
  rfl

theorem length_encode_of_le {n : Nat} (h : 128 ≤ n) :
    (encode n).length = (encode (n / 128)).length + 1 := by
  rw [encode, if_neg (Nat.not_lt.mpr h), List.length_cons]

theorem length_encode_mono {m n : Nat} (h : m ≤ n) : (encode m).length ≤ (encode n).length := by
  induction n using Nat.strongRecOn generalizing m with
  | ind n ih =>
    by_cases hm : m < 128
    · rw [length_encode_of_lt hm]
      exact length_encode_pos n
    · have hn : 128 ≤ n := by omega
      rw [length_encode_of_le (Nat.not_lt.mp hm), length_encode_of_le hn]
      exact Nat.add_le_add_right (ih (n / 128) (by omega) (Nat.div_le_div_right h)) 1

/-- The varint of a sum is not longer than those of its terms. -/
theorem length_encode_add_le (m n : Nat) :
    (encode (m + n)).length ≤ (encode m).length + (encode n).length := by
  -- the sum is at most twice its greater term, and one more byte holds as much as 128 times it
  have hbound (k : Nat) : (encode (128 * k)).length ≤ (encode k).length + 1 := by
    by_cases hk : k = 0
    · subst hk
      rw [Nat.mul_zero]
      omega
    · have hlength := length_encode_of_le (show 128 ≤ 128 * k by omega)
      rw [Nat.mul_div_cancel_left k (by decide)] at hlength
      exact Nat.le_of_eq hlength
  have hm := length_encode_pos m
  have hn := length_encode_pos n
  rcases Nat.le_total m n with h | h
  · have hsum := length_encode_mono (show m + n ≤ 128 * n by omega)
    have := hbound n
    omega
  · have hsum := length_encode_mono (show m + n ≤ 128 * m by omega)
    have := hbound m
    omega

/-- What a varint is read from is at least as long as its written form. -/
theorem length_encode_add_le_of_read {limit n : Nat} {s rest : Bytes}
    (h : read limit s = some (n, rest)) : (encode n).length + rest.length ≤ s.length := by
  obtain ⟨bytes, rfl, -, hspells⟩ := read_eq_some_iff.mp h
  have := length_encode_le_of_spells hspells
  rw [List.length_append]
  omega

end Varint

/-! ### Lengths of records -/

/-- The least length of a token. -/
def Token.leastLength : Token → Nat
  | whole r => r.encode.length
  | groupStart number => (Varint.encode (8 * number + 3)).length
  | groupEnd number => (Varint.encode (8 * number + 4)).length

theorem length_add_le_of_readPayload {number wireType : Nat} {s rest : Bytes} {t : Token}
    (h : readPayload number wireType s = some (t, rest)) :
    t.leastLength + rest.length
      ≤ (Varint.encode (8 * number + wireType)).length + s.length := by
  unfold readPayload at h
  split at h
  · obtain ⟨⟨v, r⟩, hread, he⟩ := Option.map_eq_some_iff.mp h
    cases he
    have hv := Varint.length_encode_add_le_of_read hread
    have hmod := Varint.length_encode_mono (Nat.mod_le v UInt64.size)
    simp only [Token.leastLength, Record.encode, Payload.wireType, Payload.encode,
      List.length_append]
    omega
  · obtain ⟨⟨b, r⟩, hread, he⟩ := Option.map_eq_some_iff.mp h
    cases he
    obtain ⟨rfl, -⟩ := readExact_eq_some_iff.mp hread
    simp only [Token.leastLength, Record.encode, Payload.wireType, Payload.encode,
      List.length_append]
    omega
  · obtain ⟨⟨b, r⟩, hread, he⟩ := Option.map_eq_some_iff.mp h
    cases he
    obtain ⟨⟨n, s'⟩, hlength, hbytes⟩ := Option.bind_eq_some_iff.mp hread
    have hn := Varint.length_encode_add_le_of_read hlength
    obtain ⟨rfl, rfl⟩ := readExact_eq_some_iff.mp (Option.ite_none_right_eq_some.mp hbytes).2
    simp only [Token.leastLength, Record.encode, Payload.wireType, Payload.encode,
      List.length_append] at hn ⊢
    omega
  · cases h
    exact Nat.le_refl _
  · cases h
    exact Nat.le_refl _
  · obtain ⟨⟨b, r⟩, hread, he⟩ := Option.map_eq_some_iff.mp h
    cases he
    obtain ⟨rfl, -⟩ := readExact_eq_some_iff.mp hread
    simp only [Token.leastLength, Record.encode, Payload.wireType, Payload.encode,
      List.length_append]
    omega
  · cases h

theorem length_add_le_of_readToken {s rest : Bytes} {t : Token}
    (h : readToken s = some (t, rest)) : t.leastLength + rest.length ≤ s.length := by
  obtain ⟨⟨⟨number, wireType⟩, s'⟩, htag, hpayload⟩ := Option.bind_eq_some_iff.mp h
  obtain ⟨⟨tag, s''⟩, hread, hsplit⟩ := Option.bind_eq_some_iff.mp htag
  obtain ⟨-, he⟩ := Option.ite_none_right_eq_some.mp hsplit
  cases he
  have hlength := Varint.length_encode_add_le_of_read hread
  have hle := length_add_le_of_readPayload hpayload
  rw [Nat.div_add_mod] at hle
  omega

/-- The bytes that the record of the outermost open group has had so far. -/
def pendingLength (enclosing : List Nat) : Nat :=
  (enclosing.getLast?.map fun number => (Varint.encode (8 * number + 3)).length).getD 0

@[simp] theorem pendingLength_singleton (number : Nat) :
    pendingLength [number] = (Varint.encode (8 * number + 3)).length := rfl

theorem pendingLength_cons {number : Nat} {enclosing : List Nat} (h : enclosing ≠ []) :
    pendingLength (number :: enclosing) = pendingLength enclosing := by
  rw [pendingLength, List.getLast?_cons_of_ne_nil h, pendingLength]

/-- The record that a token completes is no longer than the tokens that it consists of. -/
theorem length_le_of_step {enclosing enclosing' : List Nat} {t : Token}
    {completed : Option Record} (h : t.step depth enclosing = some (enclosing', completed)) :
    (encodeRecords completed.toList).length + pendingLength enclosing'
      ≤ t.leastLength + pendingLength enclosing := by
  cases t with
  | whole r =>
    cases enclosing with
    | nil =>
      obtain ⟨-, hr⟩ := Option.ite_none_left_eq_some.mp h
      cases hr
      rw [Option.toList_some, encodeRecords_singleton]
      exact Nat.le_refl _
    | cons innermost outer =>
      cases h
      exact Nat.add_le_add_right (Nat.zero_le _) _
  | groupStart number =>
    obtain ⟨-, hopen⟩ := Option.ite_none_left_eq_some.mp h
    cases hopen
    cases enclosing with
    | nil => exact Nat.le_of_eq (Nat.add_comm _ _)
    | cons innermost outer =>
      rw [pendingLength_cons (List.cons_ne_nil innermost outer)]
      exact Nat.add_le_add_right (Nat.zero_le _) _
  | groupEnd number =>
    cases enclosing with
    | nil => cases h
    | cons innermost outer =>
      obtain ⟨rfl, hclose⟩ := Option.ite_none_right_eq_some.mp h
      cases hclose
      cases enclosing' with
      | nil =>
        show (encodeRecords [⟨number, .group⟩]).length ≤ _
        rw [encodeRecords_singleton, Record.encode, List.length_append, pendingLength_singleton]
        exact Nat.le_of_eq (Nat.add_comm _ _)
      | cons next outer =>
        rw [pendingLength_cons (List.cons_ne_nil next outer)]
        exact Nat.add_le_add_right (Nat.zero_le _) _

/-- **Records are no longer than what they are read from.** -/
theorem length_encodeRecords_le {enclosing : List Nat} {s : Bytes} {rs : List Record}
    (h : readRecords depth enclosing s = some rs) :
    (encodeRecords rs).length ≤ s.length + pendingLength enclosing := by
  induction h using readRecords_induction with
  | nil => exact Nat.zero_le _
  | token _ ht hstep _ ih =>
    have htoken := length_add_le_of_readToken ht
    have hcompleted := length_le_of_step hstep
    rw [encodeRecords_append, List.length_append]
    omega

/-- A measure that no record raises by more than its own length is raised by no body by more than
its length. -/
theorem measure_le_of_mergeMessage {α : Type} {apply : α → Record → Option α} {f : α → Nat}
    (hstep : ∀ {a a' : α} {r : Record}, apply a r = some a' →
      f a' ≤ f a + r.encode.length)
    {held result : α} {body : Bytes} (h : mergeMessage apply depth held body = some result) :
    f result ≤ f held + body.length := by
  have hfold (rs : List Record) : ∀ held : α, rs.foldlM apply held = some result →
      f result ≤ f held + (encodeRecords rs).length := by
    induction rs with
    | nil =>
      intro held hheld
      cases hheld
      exact Nat.le_add_right _ _
    | cons r rest ih =>
      intro held hheld
      obtain ⟨next, hnext, hrest⟩ := Option.bind_eq_some_iff.mp hheld
      have hfirst := hstep hnext
      have hlast := ih next hrest
      rw [encodeRecords, List.flatMap_cons, List.length_append, ← encodeRecords]
      omega
  obtain ⟨rs, hrs, hrecords⟩ := mergeMessage_eq_some_iff.mp h
  have hle := length_encodeRecords_le hrs
  have hpending : pendingLength [] = 0 := rfl
  have := hfold rs held hrecords
  omega

/-! ### Lengths of parts -/

/-! A part that is replaced costs no more than what it is replaced by. -/

theorem replace_left_le {a a' b n : Nat} (h : a' ≤ n) : a' + b ≤ a + b + n := by
  omega

theorem replace_right_le {a b b' n : Nat} (h : b' ≤ n) : a + b' ≤ a + b + n := by
  omega

/-- The length of a record with a payload of `length` bytes behind its length. -/
def framedLength (number length : Nat) : Nat :=
  (Varint.encode (8 * number + 2)).length + (Varint.encode length).length + length

theorem length_encode_delimited (number : Nat) (bytes : Bytes) :
    (⟨number, .delimited bytes⟩ : Record).encode.length = framedLength number bytes.length := by
  simp only [Record.encode, Payload.wireType, Payload.encode, List.length_append, framedLength]
  omega

theorem framedLength_mono {number m n : Nat} (h : m ≤ n) :
    framedLength number m ≤ framedLength number n := by
  have := Varint.length_encode_mono h
  rw [framedLength, framedLength]
  omega

/-- Two records hold at least as much as one. -/
theorem framedLength_add_le (number m n : Nat) :
    framedLength number (m + n) ≤ framedLength number m + framedLength number n := by
  have := Varint.length_encode_add_le m n
  rw [framedLength, framedLength, framedLength]
  omega

/-- A few bytes more in a record are at most one byte more in its length. -/
theorem framedLength_add_small_le (number n : Nat) {k : Nat} (hk : k < 128) :
    framedLength number (n + k) ≤ framedLength number n + (k + 1) := by
  have hsum := Varint.length_encode_add_le n k
  rw [Varint.length_encode_of_lt hk] at hsum
  rw [framedLength, framedLength]
  omega

/-- The length of a record with a message of the given length, or of no record. -/
def framedIfHeld (number : Nat) (length : Option Nat) : Nat :=
  (length.map (framedLength number)).getD 0

/-- Where a message is merged into another one, or into none, the record of the result is no longer
than the records of the two. -/
theorem framedIfHeld_le {number n : Nat} {held result : Option Nat}
    (h : result.getD 0 ≤ held.getD 0 + n) :
    framedIfHeld number result ≤ framedIfHeld number held + framedLength number n := by
  cases result with
  | none => exact Nat.zero_le _
  | some k =>
    have hmono : framedLength number k ≤ framedLength number (held.getD 0 + n) :=
      framedLength_mono h
    cases held with
    | none =>
      rw [Option.getD_none, Nat.zero_add] at hmono
      exact Nat.le_trans hmono (Nat.le_add_left _ _)
    | some m => exact Nat.le_trans hmono (framedLength_add_le number m n)

theorem length_encode_varint_mono {number m n : Nat} (h : m ≤ n) :
    (⟨number, .varint m⟩ : Record).encode.length
      ≤ (⟨number, .varint n⟩ : Record).encode.length := by
  have := Varint.length_encode_mono h
  simp only [Record.encode, Payload.wireType, Payload.encode, List.length_append]
  omega

/-- The length of a record that is left out under a condition. -/
def lengthUnless (p : Prop) [Decidable p] (r : Record) : Nat :=
  (encodeRecords (if p then [] else [r])).length

theorem lengthUnless_le (p : Prop) [Decidable p] (r : Record) :
    lengthUnless p r ≤ r.encode.length := by
  rw [lengthUnless]
  split
  · exact Nat.zero_le _
  · exact Nat.le_of_eq (congrArg List.length (encodeRecords_singleton r))

theorem lengthUnless_text_le {number : Nat} {bytes : Bytes} {text : String}
    (h : Bytes.toText? bytes = some text) :
    lengthUnless (text = "") ⟨number, .delimited (Bytes.ofText text)⟩
      ≤ (⟨number, .delimited bytes⟩ : Record).encode.length := by
  rw [Bytes.eq_ofText_of_toText? h]
  exact lengthUnless_le _ _

theorem length_text_eq {number : Nat} {bytes : Bytes} {text : String}
    (h : Bytes.toText? bytes = some text) :
    (⟨number, .delimited (Bytes.ofText text)⟩ : Record).encode.length
      = (⟨number, .delimited bytes⟩ : Record).encode.length := by
  rw [Bytes.eq_ofText_of_toText? h]

end CloudEvents
