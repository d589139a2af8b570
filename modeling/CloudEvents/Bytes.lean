/-!
# Byte strings

A byte string is a list of bytes, the carrier on which readers and writers are defined by
structural recursion. Text crosses to bytes and back as UTF-8, and only well-formed UTF-8 crosses
back: no surrogates, no overlong forms, nothing above `10FFFF`.

## Main definitions

* `Bytes.ofText`, `Bytes.toText?` — the UTF-8 form of a text, and the text of a UTF-8 form
* `Bytes.precedes` — a total order, in which a string comes before its prefixes
* `Bytes.toHex` — two lower-case hexadecimal digits a byte

## Main results

* `Bytes.toText?_ofText`, `Bytes.eq_ofText_of_toText?` — reading accepts exactly what writing
  produces
* `Bytes.precedes_total`, `Bytes.precedes_trans`, `Bytes.precedes_antisymm`
-/

namespace CloudEvents

/-- A finite sequence of bytes. -/
abbrev Bytes := List UInt8

namespace Bytes

/-! ### Text as bytes -/

/-- The UTF-8 bytes of a text. -/
def ofText (text : String) : Bytes := text.toUTF8.data.toList

/-- The text whose UTF-8 bytes these are, if they are well formed. -/
def toText? (bytes : Bytes) : Option String := String.fromUTF8? ⟨bytes.toArray⟩

theorem toText?_ofText (text : String) : toText? (ofText text) = some text := by
  have h : (⟨(ofText text).toArray⟩ : ByteArray) = text.toByteArray := by simp [ofText]
  rw [toText?, String.fromUTF8?, h, dif_pos text.isValidUTF8]
  rfl

theorem eq_ofText_of_toText? {bytes : Bytes} {text : String} (h : toText? bytes = some text) :
    bytes = ofText text := by
  rw [toText?, String.fromUTF8?] at h
  split at h
  · cases h
    simp [ofText, String.fromUTF8]
  · cases h

/-! ### Order -/

/-- The order of byte strings in which the first difference decides and the end of a string counts
as larger than any byte. -/
def precedes : Bytes → Bytes → Bool
  | _, [] => true
  | [], _ :: _ => false
  | a :: as, b :: bs => a < b || (a = b && precedes as bs)

theorem precedes_cons {a b : UInt8} {as bs : Bytes} :
    precedes (a :: as) (b :: bs) = true ↔ a.toNat < b.toNat ∨ a = b ∧ precedes as bs = true := by
  simp only [precedes, Bool.or_eq_true, Bool.and_eq_true, decide_eq_true_eq, UInt8.lt_iff_toNat_lt]

theorem precedes_total (as bs : Bytes) : precedes as bs = true ∨ precedes bs as = true := by
  induction as generalizing bs with
  | nil => cases bs <;> simp [precedes]
  | cons a as ih =>
    cases bs with
    | nil => exact Or.inl rfl
    | cons b bs =>
      rw [precedes_cons, precedes_cons]
      by_cases hab : a = b
      · subst hab
        exact (ih bs).imp (fun h => Or.inr ⟨rfl, h⟩) fun h => Or.inr ⟨rfl, h⟩
      · have hne : a.toNat ≠ b.toNat := fun h => hab (UInt8.toNat_inj.1 h)
        exact (Nat.lt_or_gt_of_ne hne).imp Or.inl Or.inl

theorem precedes_trans {as bs cs : Bytes} (hab : precedes as bs = true)
    (hbc : precedes bs cs = true) : precedes as cs = true := by
  induction as generalizing bs cs with
  | nil =>
    cases bs with
    | nil => exact hbc
    | cons b bs => cases hab
  | cons a as ih =>
    cases cs with
    | nil => rfl
    | cons c cs =>
      cases bs with
      | nil => cases hbc
      | cons b bs =>
        rw [precedes_cons] at hab hbc ⊢
        rcases hab with hab | ⟨rfl, hab⟩
        · rcases hbc with hbc | ⟨rfl, -⟩
          · exact Or.inl (Nat.lt_trans hab hbc)
          · exact Or.inl hab
        · exact hbc.imp id fun ⟨hc, hbc⟩ => ⟨hc, ih hab hbc⟩

theorem precedes_antisymm {as bs : Bytes} (hab : precedes as bs = true)
    (hba : precedes bs as = true) : as = bs := by
  induction as generalizing bs with
  | nil =>
    cases bs with
    | nil => rfl
    | cons b bs => cases hab
  | cons a as ih =>
    cases bs with
    | nil => cases hba
    | cons b bs =>
      rw [precedes_cons] at hab hba
      rcases hab with hab | ⟨rfl, hab⟩
      · rcases hba with hba | ⟨rfl, -⟩ <;> omega
      · rcases hba with hba | ⟨-, hba⟩
        · omega
        · rw [ih hab hba]

/-! ### Hexadecimal -/

/-- Two hexadecimal digits for each byte, the high half first. -/
def toHex (bytes : Bytes) : String :=
  String.ofList (bytes.flatMap fun b =>
    [Nat.digitChar (b.toNat / 16), Nat.digitChar (b.toNat % 16)])

end Bytes

end CloudEvents
