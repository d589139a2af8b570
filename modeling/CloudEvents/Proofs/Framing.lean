import CloudEvents.Wire.Message

/-!
# Framing

Which bytes are a sequence of records, as laws of `readRecords`. A reader that stops at the right
byte does not care what follows, so sequences can be put one after the other and be read piece by
piece; and what was read with few levels left is read alike with more.

Every fact about accepted bytes is an induction over tokens, and a token may leave groups open. The
induction is packaged once, in `readRecords_induction`, with the open groups as part of the
statement; the laws below are instances of it.

## Main definitions

* `SelfDelimiting` — readers that stop by themselves
* `Record.Fits` — a record whose written form is read back

## Main results

* `readRecords_append` — a sequence in front of any bytes is read first
* `readRecords_mono` — levels to spare change nothing
* `readRecords_encodeRecords` — written records are read back
-/

namespace CloudEvents

variable {depth : Nat}

/-! ### Readers that stop by themselves -/

/-- A reader that takes a front of its input, and takes it alike whatever stands behind. -/
def SelfDelimiting {α : Type} (reader : Bytes → Option (α × Bytes)) : Prop :=
  ∀ s a rest, reader s = some (a, rest) →
    ∃ front, s = front ++ rest ∧ ∀ more, reader (front ++ more) = some (a, more)

namespace SelfDelimiting

variable {α β : Type} {reader : Bytes → Option (α × Bytes)}

/-- Bytes that follow are left over. -/
theorem append (h : SelfDelimiting reader) {s rest : Bytes} {a : α}
    (hs : reader s = some (a, rest)) (more : Bytes) :
    reader (s ++ more) = some (a, rest ++ more) := by
  obtain ⟨front, rfl, hfront⟩ := h s a rest hs
  rw [List.append_assoc]
  exact hfront (rest ++ more)

/-- The reader that takes nothing. -/
theorem stay (a : α) : SelfDelimiting fun s => some (a, s) := by
  intro s b rest hs
  cases hs
  exact ⟨[], rfl, fun more => rfl⟩

theorem bind {next : α → Bytes → Option (β × Bytes)} (h : SelfDelimiting reader)
    (hnext : ∀ a, SelfDelimiting (next a)) :
    SelfDelimiting fun s => (reader s).bind fun read => next read.1 read.2 := by
  intro s b rest hs
  obtain ⟨⟨a, middle⟩, ha, hb⟩ := Option.bind_eq_some_iff.mp hs
  obtain ⟨front, rfl, hfront⟩ := h s a middle ha
  obtain ⟨back, rfl, hback⟩ := hnext a middle b rest hb
  refine ⟨front ++ back, (List.append_assoc front back rest).symm, fun more => ?_⟩
  rw [List.append_assoc]
  exact Option.bind_eq_some_iff.mpr ⟨(a, back ++ more), hfront (back ++ more), hback more⟩

theorem map (f : α → β) (h : SelfDelimiting reader) :
    SelfDelimiting fun s => (reader s).map fun read => (f read.1, read.2) := by
  intro s b rest hs
  obtain ⟨⟨a, rest'⟩, ha, hb⟩ := Option.map_eq_some_iff.mp hs
  cases hb
  obtain ⟨front, rfl, hfront⟩ := h s a rest' ha
  exact ⟨front, rfl, fun more => Option.map_eq_some_iff.mpr ⟨(a, more), hfront more, rfl⟩⟩

theorem guard (p : Prop) [Decidable p] (h : SelfDelimiting reader) :
    SelfDelimiting fun s => if p then reader s else none := by
  intro s a rest hs
  obtain ⟨hp, ha⟩ := Option.ite_none_right_eq_some.mp hs
  obtain ⟨front, rfl, hfront⟩ := h s a rest ha
  exact ⟨front, rfl, fun more => (if_pos hp).trans (hfront more)⟩

end SelfDelimiting

theorem selfDelimiting_varint (limit : Nat) : SelfDelimiting (Varint.read limit) :=
  fun _ _ _ h => Varint.exists_front_of_read h

theorem selfDelimiting_readExact (n : Nat) : SelfDelimiting (readExact n) := by
  intro s front rest h
  obtain ⟨rfl, hn⟩ := readExact_eq_some_iff.mp h
  exact ⟨front, rfl, fun more => readExact_eq_some_iff.mpr ⟨rfl, hn⟩⟩

theorem selfDelimiting_readTag : SelfDelimiting readTag :=
  (selfDelimiting_varint 5).bind fun tag =>
    (SelfDelimiting.stay (tag / 8, tag % 8)).guard (tag < UInt32.size)

theorem selfDelimiting_readDelimited : SelfDelimiting readDelimited :=
  (selfDelimiting_varint 5).bind fun length =>
    (selfDelimiting_readExact length).guard (length ≤ maxLength)

theorem selfDelimiting_readPayload (number wireType : Nat) :
    SelfDelimiting (readPayload number wireType) := by
  unfold readPayload
  split
  · exact (selfDelimiting_varint 10).map fun v => Token.whole ⟨number, .varint (v % UInt64.size)⟩
  · exact (selfDelimiting_readExact 8).map fun b => Token.whole ⟨number, .fixed64 b⟩
  · exact selfDelimiting_readDelimited.map fun b => Token.whole ⟨number, .delimited b⟩
  · exact .stay (Token.groupStart number)
  · exact .stay (Token.groupEnd number)
  · exact (selfDelimiting_readExact 4).map fun b => Token.whole ⟨number, .fixed32 b⟩
  · exact fun _ _ _ h => nomatch h

theorem selfDelimiting_readToken : SelfDelimiting readToken :=
  selfDelimiting_readTag.bind fun tag => selfDelimiting_readPayload tag.1 tag.2

/-! ### One step of a sequence -/

theorem readRecords_nil (depth : Nat) : readRecords depth [] [] = some [] := by
  rw [readRecords]
  rfl

theorem readRecords_of_readToken {enclosing : List Nat} {s rest : Bytes} {t : Token}
    (h : readToken s = some (t, rest)) :
    readRecords depth enclosing s
      = (t.step depth enclosing).bind fun next =>
        (readRecords depth next.1 rest).map (next.2.toList ++ ·) := by
  have hs : s.isEmpty = false := by
    cases s with
    | nil => cases h
    | cons b tail => rfl
  rw [readRecords, if_neg (by simp [hs])]
  split
  · rename_i hn
    rw [h] at hn
    cases hn
  · rename_i t' rest' he
    rw [h] at he
    cases he
    rfl

/-- The one induction over accepted bytes: a sequence is empty, with no group open, or it is a token
and an accepted rest. -/
theorem readRecords_induction
    {motive : (enclosing : List Nat) → (s : Bytes) → (rs : List Record) →
      readRecords depth enclosing s = some rs → Prop}
    (nil : motive [] [] [] (readRecords_nil depth))
    (token : ∀ {enclosing enclosing' : List Nat} {s rest : Bytes} {t : Token}
      {completed : Option Record} {tail : List Record}
      (h : readRecords depth enclosing s = some (completed.toList ++ tail)),
      readToken s = some (t, rest) → t.step depth enclosing = some (enclosing', completed) →
      ∀ htail : readRecords depth enclosing' rest = some tail, motive enclosing' rest tail htail →
      motive enclosing s (completed.toList ++ tail) h)
    {enclosing : List Nat} {s : Bytes} {rs : List Record}
    (h : readRecords depth enclosing s = some rs) : motive enclosing s rs h := by
  induction enclosing, s using readRecords.induct generalizing rs with
  | case1 enclosing s hs he =>
    obtain rfl := List.isEmpty_iff.mp hs
    obtain rfl := List.isEmpty_iff.mp he
    obtain rfl : [] = rs := Option.some.inj ((readRecords_nil depth).symm.trans h)
    exact nil
  | case2 enclosing s hs he =>
    rw [readRecords, if_pos hs, if_neg he] at h
    cases h
  | case3 enclosing s hs hn =>
    rw [readRecords, if_neg hs] at h
    split at h
    · cases h
    · rename_i he
      rw [hn] at he
      cases he
  | case4 enclosing s hs t rest ht _ ih =>
    obtain ⟨⟨enclosing', completed⟩, hstep, hrest⟩ :=
      Option.bind_eq_some_iff.mp (readRecords_of_readToken ht ▸ h)
    obtain ⟨tail, htail, rfl⟩ := Option.map_eq_some_iff.mp hrest
    exact token h ht hstep htail (ih enclosing' htail)

/-! ### Sequences before other bytes -/

/-- A sequence of records ends by itself: what follows is read as if it stood alone. -/
theorem readRecords_append {enclosing : List Nat} {s : Bytes} {rs : List Record}
    (h : readRecords depth enclosing s = some rs) (more : Bytes) :
    readRecords depth enclosing (s ++ more) = (readRecords depth [] more).map (rs ++ ·) := by
  induction h using readRecords_induction with
  | nil => simp
  | token _ ht hstep _ ih =>
    rw [readRecords_of_readToken (selfDelimiting_readToken.append ht more), hstep, Option.bind_some]
    simp only [ih, Option.map_map]
    exact congrArg (Option.map · _) (funext fun tail => (List.append_assoc _ _ tail).symm)

/-! ### Levels to spare -/

theorem Token.step_mono {depth' : Nat} (hd : depth ≤ depth') {enclosing : List Nat} {t : Token}
    {next : List Nat × Option Record} (h : t.step depth enclosing = some next) :
    t.step depth' enclosing = some next := by
  cases t with
  | whole r => exact h
  | groupEnd number => exact h
  | groupStart number =>
    simp only [Token.step, Option.ite_none_left_eq_some, Bool.or_eq_true, decide_eq_true_eq,
      not_or] at h ⊢
    exact ⟨⟨h.1.1, by omega⟩, h.2⟩

/-- What is accepted with some levels left is accepted, and read alike, with more. -/
theorem readRecords_mono {depth' : Nat} (hd : depth ≤ depth') {enclosing : List Nat} {s : Bytes}
    {rs : List Record} (h : readRecords depth enclosing s = some rs) :
    readRecords depth' enclosing s = some rs := by
  induction h using readRecords_induction with
  | nil => exact readRecords_nil depth'
  | token _ ht hstep _ ih =>
    rw [readRecords_of_readToken ht, Token.step_mono hd hstep, Option.bind_some, ih]
    rfl

/-! ### Written records -/

theorem encodeRecords_append (rs rs' : List Record) :
    encodeRecords (rs ++ rs') = encodeRecords rs ++ encodeRecords rs' :=
  List.flatMap_append

theorem encodeRecords_singleton (r : Record) : encodeRecords [r] = r.encode :=
  List.flatMap_singleton Record.encode r

/-- A payload that can be written and read back when `depth` levels are left. -/
def Payload.Fits (depth : Nat) : Payload → Prop
  | varint value => value < UInt64.size
  | fixed64 bytes => bytes.length = 8
  | delimited bytes => bytes.length ≤ maxLength
  | group => 0 < depth
  | fixed32 bytes => bytes.length = 4

/-- A record that can be written and read back: its tag fits 32 bits, and so does its length. -/
structure Record.Fits (depth : Nat) (r : Record) : Prop where
  number_pos : 0 < r.number
  tag_lt : 8 * r.number + r.payload.wireType < UInt32.size
  payload_fits : r.payload.Fits depth

theorem Payload.wireType_lt (p : Payload) : p.wireType < 8 := by
  cases p <;> simp [wireType]

theorem readTag_encode {number wireType : Nat} (hw : wireType < 8)
    (h : 8 * number + wireType < UInt32.size) (rest : Bytes) :
    readTag (Varint.encode (8 * number + wireType) ++ rest) = some ((number, wireType), rest) := by
  have hlt : 8 * number + wireType < Nat.pow 128 5 := Nat.lt_trans h (by decide)
  rw [readTag, Varint.read_encode hlt (by decide)]
  refine (if_pos h).trans ?_
  rw [show (8 * number + wireType) / 8 = number by omega,
    show (8 * number + wireType) % 8 = wireType by omega]

theorem readDelimited_encode {bytes : Bytes} (h : bytes.length ≤ maxLength) (rest : Bytes) :
    readDelimited (Varint.encode bytes.length ++ bytes ++ rest) = some (bytes, rest) := by
  have hlt : bytes.length < Nat.pow 128 5 := Nat.lt_of_le_of_lt h (by decide)
  rw [readDelimited, List.append_assoc, Varint.read_encode hlt (by decide)]
  exact (if_pos h).trans (readExact_eq_some_iff.mpr ⟨rfl, rfl⟩)

/-- A tag announces the payload that follows it. -/
theorem readToken_encode {number wireType : Nat} (hw : wireType < 8)
    (h : 8 * number + wireType < UInt32.size) (rest : Bytes) :
    readToken (Varint.encode (8 * number + wireType) ++ rest)
      = readPayload number wireType rest := by
  rw [readToken, readTag_encode hw h]
  rfl

/-- A payload that is not a group is one token together with its tag. -/
theorem readPayload_encode {number : Nat} {p : Payload} (hp : p ≠ .group) (h : p.Fits depth)
    (rest : Bytes) :
    readPayload number p.wireType (p.encode number ++ rest)
      = some (.whole ⟨number, p⟩, rest) := by
  cases p with
  | varint value =>
    have hlt : value < Nat.pow 128 10 := Nat.lt_trans h (by decide)
    simp only [Payload.wireType, Payload.encode, readPayload,
      Varint.read_encode hlt (by decide), Option.map_some, Nat.mod_eq_of_lt h]
  | fixed64 bytes =>
    simp only [Payload.wireType, Payload.encode, readPayload,
      readExact_eq_some_iff.mpr ⟨rfl, h⟩, Option.map_some]
  | delimited bytes =>
    simp only [Payload.wireType, Payload.encode, readPayload, readDelimited_encode h,
      Option.map_some]
  | group => exact absurd rfl hp
  | fixed32 bytes =>
    simp only [Payload.wireType, Payload.encode, readPayload,
      readExact_eq_some_iff.mpr ⟨rfl, h⟩, Option.map_some]

/-- **A written record is read back**, and reading goes on behind it. -/
theorem readRecords_encode_append {r : Record} (h : r.Fits depth) (rest : Bytes) :
    readRecords depth [] (r.encode ++ rest) = (readRecords depth [] rest).map (r :: ·) := by
  obtain ⟨number, payload⟩ := r
  obtain ⟨hpos, htag, hfits⟩ := h
  simp only at hpos htag hfits
  have hne : number ≠ 0 := Nat.pos_iff_ne_zero.mp hpos
  rw [Record.encode, List.append_assoc]
  by_cases hp : payload = .group
  · -- a group is two tokens, its start and its end, and needs a level between them
    subst hp
    have hend : 8 * number + 4 < UInt32.size := by
      simp only [Payload.wireType, UInt32.size] at htag ⊢
      omega
    have hopens : (Token.groupStart number).step depth [] = some ([number], none) := by
      simp [Token.step, hne, Nat.pos_iff_ne_zero.mp hfits]
    have hcloses : (Token.groupEnd number).step depth [number]
        = some ([], some ⟨number, .group⟩) := by
      simp [Token.step]
    rw [readRecords_of_readToken (readToken_encode (by decide) htag _), hopens, Option.bind_some,
      Payload.encode, readRecords_of_readToken (readToken_encode (by decide) hend rest), hcloses,
      Option.bind_some, Option.map_map]
    rfl
  · rw [readRecords_of_readToken
      ((readToken_encode payload.wireType_lt htag _).trans (readPayload_encode hp hfits rest))]
    simp [Token.step, hne]

/-- A list of records that fit is read back from its written form, and reading goes on behind. -/
theorem readRecords_encodeRecords_append {rs : List Record} (h : ∀ r ∈ rs, r.Fits depth)
    (rest : Bytes) :
    readRecords depth [] (encodeRecords rs ++ rest)
      = (readRecords depth [] rest).map (rs ++ ·) := by
  induction rs with
  | nil => simp [encodeRecords]
  | cons r rs ih =>
    rw [encodeRecords, List.flatMap_cons, List.append_assoc,
      readRecords_encode_append (h r List.mem_cons_self), ← encodeRecords,
      ih fun r hr => h r (List.mem_cons_of_mem _ hr), Option.map_map]
    rfl

theorem readRecords_encodeRecords {rs : List Record} (h : ∀ r ∈ rs, r.Fits depth) :
    readRecords depth [] (encodeRecords rs) = some rs := by
  have := readRecords_encodeRecords_append h []
  rwa [List.append_nil, readRecords_nil, Option.map_some, List.append_nil] at this

end CloudEvents
