import CloudEvents.Proofs.WrittenForms

/-!
# Spellings

`Record.encode` writes one form of a record. A reader meets others: varints may be padded, and a
group may hold any records. This module says which bytes stand for which numbers and records, by
rules that know neither a reader nor a writer, and ties both to the rules.

A varint is spelled seven bits a byte, so a number has one spelling for each length from the least
one on. What is written is the least. A record is spelled as its tag and its payload, where any
spelling of a varint will do within the bytes that the format allows for it, and a group is spelled
as whatever records stand between its two tags.

## Main definitions

* `Varint.Spells`, `Varint.Minimal` — numbers
* `TagSpells`, `PayloadSpells`, `RecordsSpell` — records

## Main results

* `Varint.read_eq_some_iff` — reading accepts exactly the spellings within the limit
* `Varint.minimal_encode` — what is written is a shortest spelling
* `recordsSpell_encodeRecords` — written records are spelled
* `readRecords_of_spell` — spelled records are read, also below open groups
-/

namespace CloudEvents

/-! ### Numbers -/

namespace Varint

/-- Seven bits a byte, the lowest first, and a high bit on every byte but the last. -/
inductive Spells : Bytes → Nat → Prop
  | last {b : UInt8} (h : b.toNat < 128) : Spells [b] b.toNat
  | more {b : UInt8} {rest : Bytes} {n : Nat} (h : 128 ≤ b.toNat) (hrest : Spells rest n) :
      Spells (b :: rest) (b.toNat - 128 + 128 * n)

/-- A spelling than which there is no shorter one. -/
structure Minimal (bytes : Bytes) (n : Nat) : Prop where
  spells : Spells bytes n
  length_le : ∀ other, Spells other n → bytes.length ≤ other.length

variable {bytes : Bytes} {n limit : Nat}

theorem read_of_spells (h : Spells bytes n) (hlimit : bytes.length ≤ limit) (rest : Bytes) :
    read limit (bytes ++ rest) = some (n, rest) := by
  induction h generalizing limit with
  | last hb =>
    obtain ⟨limit, rfl⟩ : ∃ k, limit = k + 1 := ⟨limit - 1, by simp at hlimit; omega⟩
    simp [read, hb]
  | @more b tail n hb _ ih =>
    obtain ⟨limit, rfl⟩ : ∃ k, limit = k + 1 := ⟨limit - 1, by simp at hlimit; omega⟩
    have hrest : read limit (tail ++ rest) = some (n, rest) := ih (by simpa using hlimit)
    simp [read, hrest, Nat.not_lt.mpr hb]

/-- A reader takes a spelling that is no longer than its limit, and takes nothing else. -/
theorem read_eq_some_iff {s rest : Bytes} :
    read limit s = some (n, rest)
      ↔ ∃ bytes, s = bytes ++ rest ∧ bytes.length ≤ limit ∧ Spells bytes n := by
  constructor
  · intro h
    induction limit generalizing s n with
    | zero => cases s <;> simp [read] at h
    | succ limit ih =>
      cases s with
      | nil => simp [read] at h
      | cons b tail =>
        simp only [read] at h
        split at h
        · rename_i hb
          cases h
          exact ⟨[b], rfl, by simp, .last hb⟩
        · rename_i hb
          obtain ⟨⟨high, rest'⟩, hread, he⟩ := Option.map_eq_some_iff.mp h
          cases he
          obtain ⟨bytes, rfl, hlength, hspells⟩ := ih hread
          exact ⟨b :: bytes, rfl, by simpa using hlength, .more (Nat.not_lt.mp hb) hspells⟩
  · rintro ⟨bytes, rfl, hlength, hspells⟩
    exact read_of_spells hspells hlength rest

theorem spells_encode (n : Nat) : Spells (encode n) n := by
  have htoNat {m : Nat} (h : m < 256) : (UInt8.ofNat m).toNat = m := by
    rw [UInt8.toNat_ofNat']
    exact Nat.mod_eq_of_lt h
  fun_induction encode n with
  | case1 n hsmall =>
    have hb : (UInt8.ofNat n).toNat = n := htoNat (by omega)
    have hlast : Spells [UInt8.ofNat n] (UInt8.ofNat n).toNat := .last (by omega)
    rwa [hb] at hlast
  | case2 n hbig ih =>
    have hb : (UInt8.ofNat (n % 128 + 128)).toNat = n % 128 + 128 := htoNat (by omega)
    have hmore := Spells.more (b := UInt8.ofNat (n % 128 + 128)) (by omega) ih
    rwa [hb, show n % 128 + 128 - 128 + 128 * (n / 128) = n by omega] at hmore

theorem length_encode_le_of_spells (h : Spells bytes n) : (encode n).length ≤ bytes.length := by
  induction h with
  | last hb => simp [encode, hb]
  | @more b rest n hb hrest ih =>
    have hbyte := b.toNat_lt
    rw [encode]
    split
    · simp
    · rw [show (b.toNat - 128 + 128 * n) / 128 = n by omega]
      simpa using ih

/-- **Written varints are minimal.** -/
theorem minimal_encode (n : Nat) : Minimal (encode n) n :=
  ⟨spells_encode n, fun _ h => length_encode_le_of_spells h⟩

/-- A number below `128 ^ (k + 1)` that is not below `128 ^ k` takes `k + 1` bytes. -/
theorem length_encode {k : Nat} (h : Nat.pow 128 k ≤ n) (h' : n < Nat.pow 128 (k + 1)) :
    (encode n).length = k + 1 := by
  induction k generalizing n with
  | zero =>
    rw [encode, if_pos (by simpa using h')]
    rfl
  | succ k ih =>
    have hbig : 128 ≤ n := Nat.le_trans (Nat.le_self_pow (Nat.succ_ne_zero k) 128) h
    have hlow : Nat.pow 128 k ≤ n / 128 := (Nat.le_div_iff_mul_le (by decide)).mpr h
    have hhigh : n / 128 < Nat.pow 128 (k + 1) := (Nat.div_lt_iff_lt_mul (by decide)).mpr h'
    rw [encode, if_neg (by omega), List.length_cons, ih hlow hhigh]

/-- A number below `128 ^ limit` takes no more than `limit` bytes. -/
theorem length_encode_le (h : n < Nat.pow 128 limit) (hlimit : 0 < limit) :
    (encode n).length ≤ limit := by
  have hread := read_encode h hlimit []
  obtain ⟨bytes, hbytes, hlength, -⟩ := read_eq_some_iff.mp hread
  rwa [List.append_cancel_right hbytes]

/-- A negative integer takes ten bytes. -/
theorem length_encode_ofInt {i : Int} (h : -9223372036854775808 ≤ i) (hneg : i < 0) :
    (encode (ofInt i)).length = 10 := by
  have hvalue : (ofInt i : Int) = i + 18446744073709551616 := by
    rw [natCast_ofInt]
    simp only [UInt64.size]
    omega
  have hlow : Nat.pow 128 9 ≤ ofInt i := by
    simp only [Nat.pow_eq, Nat.reducePow]
    omega
  have hhigh : ofInt i < Nat.pow 128 (9 + 1) := by
    simp only [Nat.pow_eq, Nat.reduceAdd, Nat.reducePow]
    omega
  exact length_encode hlow hhigh

end Varint

/-! ### Records -/

/-- The bytes are a tag: a field number and a wire type in 32 bits, as a varint of at most five
bytes. Zero is no field number. -/
structure TagSpells (bytes : Bytes) (number wireType : Nat) : Prop where
  spells : Varint.Spells bytes (8 * number + wireType)
  length_le : bytes.length ≤ 5
  number_pos : 0 < number
  tag_lt : 8 * number + wireType < UInt32.size

/-- The bytes are a payload that is not a group. Of a varint the lowest 64 bits count. -/
def PayloadSpells (bytes : Bytes) : Payload → Prop
  | .varint value => ∃ n, n % UInt64.size = value ∧ Varint.Spells bytes n ∧ bytes.length ≤ 10
  | .fixed64 body => bytes = body ∧ body.length = 8
  | .delimited body => ∃ length, bytes = length ++ body ∧ Varint.Spells length body.length
      ∧ length.length ≤ 5 ∧ body.length ≤ maxLength
  | .group => False
  | .fixed32 body => bytes = body ∧ body.length = 4

/-- The bytes are these records, with no more than `depth` groups inside one another. What a group
holds is spelled as well, but is no part of the record. -/
inductive RecordsSpell : (depth : Nat) → Bytes → List Record → Prop
  | nil {depth : Nat} : RecordsSpell depth [] []
  | record {depth number : Nat} {p : Payload} {tag body rest : Bytes} {rs : List Record}
      (htag : TagSpells tag number p.wireType) (hbody : PayloadSpells body p)
      (hrest : RecordsSpell depth rest rs) :
      RecordsSpell depth (tag ++ body ++ rest) (⟨number, p⟩ :: rs)
  | group {depth number : Nat} {start content finish rest : Bytes} {inner rs : List Record}
      (hstart : TagSpells start number 3) (hcontent : RecordsSpell depth content inner)
      (hfinish : TagSpells finish number 4) (hrest : RecordsSpell (depth + 1) rest rs) :
      RecordsSpell (depth + 1) (start ++ content ++ finish ++ rest) (⟨number, .group⟩ :: rs)

variable {number wireType : Nat}

/-! What is written is one of the spellings. -/

theorem tagSpells_encode (hpos : 0 < number) (htag : 8 * number + wireType < UInt32.size) :
    TagSpells (Varint.encode (8 * number + wireType)) number wireType where
  spells := Varint.spells_encode _
  length_le := Varint.length_encode_le (Nat.lt_trans htag (by decide)) (by decide)
  number_pos := hpos
  tag_lt := htag

theorem payloadSpells_encode {depth : Nat} {p : Payload} (hp : p ≠ .group) (h : p.Fits depth) :
    PayloadSpells (p.encode number) p := by
  cases p with
  | varint value =>
    exact ⟨value, Nat.mod_eq_of_lt h, Varint.spells_encode value,
      Varint.length_encode_le (Nat.lt_trans h (by decide)) (by decide)⟩
  | fixed64 bytes => exact ⟨rfl, h⟩
  | delimited bytes =>
    exact ⟨_, rfl, Varint.spells_encode _,
      Varint.length_encode_le (Nat.lt_of_le_of_lt h (by decide)) (by decide), h⟩
  | group => exact absurd rfl hp
  | fixed32 bytes => exact ⟨rfl, h⟩

/-- **Written records are spelled.** -/
theorem recordsSpell_encodeRecords {depth : Nat} {rs : List Record}
    (h : ∀ r ∈ rs, r.Fits depth) : RecordsSpell depth (encodeRecords rs) rs := by
  induction rs with
  | nil => exact .nil
  | cons r rest ih =>
    obtain ⟨hr, hrest⟩ := List.forall_mem_cons.mp h
    obtain ⟨number, p⟩ := r
    obtain ⟨hpos, htag, hfits⟩ := hr
    rw [encodeRecords, List.flatMap_cons]
    by_cases hp : p = .group
    · subst hp
      have hend : 8 * number + 4 < UInt32.size := by
        simp only [Payload.wireType, UInt32.size] at htag ⊢
        omega
      cases depth with
      | zero => exact absurd hfits (Nat.lt_irrefl 0)
      | succ depth =>
        have hgroup := RecordsSpell.group (tagSpells_encode hpos htag) .nil
          (tagSpells_encode hpos hend) (ih hrest)
        rwa [List.append_nil] at hgroup
    · exact .record (tagSpells_encode hpos htag) (payloadSpells_encode hp hfits) (ih hrest)

/-! Spellings are read. -/

theorem readTag_of_spells {tag : Bytes} (h : TagSpells tag number wireType) (hw : wireType < 8)
    (rest : Bytes) : readTag (tag ++ rest) = some ((number, wireType), rest) := by
  rw [readTag, Varint.read_of_spells h.spells h.length_le]
  refine (if_pos h.tag_lt).trans ?_
  rw [show (8 * number + wireType) / 8 = number by omega,
    show (8 * number + wireType) % 8 = wireType by omega]

theorem readPayload_of_spells {body : Bytes} {p : Payload} (h : PayloadSpells body p)
    (rest : Bytes) :
    readPayload number p.wireType (body ++ rest) = some (.whole ⟨number, p⟩, rest) := by
  cases p with
  | varint value =>
    obtain ⟨n, rfl, hspells, hlength⟩ := h
    simp [Payload.wireType, readPayload, Varint.read_of_spells hspells hlength]
  | fixed64 bytes =>
    obtain ⟨rfl, hlength⟩ := h
    simp [Payload.wireType, readPayload, readExact_eq_some_iff.mpr ⟨rfl, hlength⟩]
  | delimited bytes =>
    obtain ⟨length, rfl, hspells, hlength, hmax⟩ := h
    have hread : readDelimited (length ++ (bytes ++ rest)) = some (bytes, rest) := by
      rw [readDelimited, Varint.read_of_spells hspells hlength]
      exact (if_pos hmax).trans (readExact_eq_some_iff.mpr ⟨rfl, rfl⟩)
    simp [Payload.wireType, readPayload, hread]
  | group => exact h.elim
  | fixed32 bytes =>
    obtain ⟨rfl, hlength⟩ := h
    simp [Payload.wireType, readPayload, readExact_eq_some_iff.mpr ⟨rfl, hlength⟩]

theorem readToken_of_spells {tag : Bytes} (h : TagSpells tag number wireType) (hw : wireType < 8)
    (rest : Bytes) : readToken (tag ++ rest) = readPayload number wireType rest := by
  rw [readToken, readTag_of_spells h hw]
  rfl

/-- **Spelled records are read**, and reading goes on behind them. Below open groups they are read
as well, as long as there are levels for theirs, and leave nothing. -/
theorem readRecords_of_spell {depth depth' : Nat} {bytes : Bytes} {rs : List Record}
    (h : RecordsSpell depth bytes rs) {enclosing : List Nat}
    (hdepth : enclosing.length + depth ≤ depth') (more : Bytes) :
    readRecords depth' enclosing (bytes ++ more)
      = (readRecords depth' enclosing more).map ((if enclosing = [] then rs else []) ++ ·) := by
  induction h generalizing enclosing more with
  | nil => simp
  | @record depth number p tag body rest rs htag hbody _ ih =>
    have htoken : readToken (tag ++ body ++ rest ++ more)
        = some (.whole ⟨number, p⟩, rest ++ more) := by
      rw [List.append_assoc, List.append_assoc, readToken_of_spells htag p.wireType_lt]
      exact readPayload_of_spells hbody _
    have hne : number ≠ 0 := Nat.pos_iff_ne_zero.mp htag.number_pos
    rw [readRecords_of_readToken htoken]
    cases enclosing with
    | nil => simp [Token.step, hne, ih hdepth, Function.comp_def]
    | cons innermost outer => simp [Token.step, ih hdepth]
  | @group depth number start content finish rest inner rs hstart _ hfinish _ ihcontent ih =>
    have hopen : readToken (start ++ content ++ finish ++ rest ++ more)
        = some (.groupStart number, content ++ (finish ++ (rest ++ more))) := by
      simp only [List.append_assoc]
      rw [readToken_of_spells hstart (by decide)]
      rfl
    have hclose : readToken (finish ++ (rest ++ more))
        = some (.groupEnd number, rest ++ more) := by
      rw [readToken_of_spells hfinish (by decide)]
      rfl
    have hne : number ≠ 0 := Nat.pos_iff_ne_zero.mp hstart.number_pos
    have hlevel : ¬ depth' ≤ enclosing.length := by omega
    have hlength : (number :: enclosing).length + depth ≤ depth' := by
      rw [List.length_cons]
      omega
    have hinside : readRecords depth' (number :: enclosing) (content ++ (finish ++ (rest ++ more)))
        = readRecords depth' (number :: enclosing) (finish ++ (rest ++ more)) := by
      simpa using ihcontent hlength (finish ++ (rest ++ more))
    rw [readRecords_of_readToken hopen]
    simp only [Token.step, hne, hlevel, beq_iff_eq, Bool.and_eq_true, decide_eq_true_eq, and_false,
      or_self, Bool.or_eq_true, if_false, Option.bind_some, hinside,
      readRecords_of_readToken hclose, if_true]
    cases enclosing with
    | nil => simp [ih hdepth, Function.comp_def]
    | cons innermost outer => simp [ih hdepth]

theorem readRecords_of_spell_append {depth depth' : Nat} {bytes : Bytes} {rs : List Record}
    (h : RecordsSpell depth bytes rs) (hdepth : depth ≤ depth') (more : Bytes) :
    readRecords depth' [] (bytes ++ more) = (readRecords depth' [] more).map (rs ++ ·) := by
  rw [readRecords_of_spell h (by simpa using hdepth), if_pos rfl]

end CloudEvents
