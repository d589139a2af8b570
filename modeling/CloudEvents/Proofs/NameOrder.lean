import CloudEvents.Proofs.CanonicalEncoding
import Mathlib.Data.List.Pairwise
import Mathlib.Data.String.Basic

/-!
# The order of names

A deterministic codec writes attributes in the order of the bytes of their names. Which order of
byte strings that is has two parts. The first byte that differs decides, and for texts this is the
order of their code points, because UTF-8 keeps that order: a longer form begins with a larger byte,
and forms of one length are numbers with their digits in place. But where one name is a prefix of
another no byte differs, and then the longer name comes first.

So the order is not the ascending one, neither of bytes nor of code points, as soon as one name is a
proper prefix of another, and it is the ascending one if none is (`InWritingOrder.ascending_iff`).

## Main definitions

* `WrittenBefore` — the order in which names are written
* `Event.InWritingOrder` — the attributes of an event in that order
* `PrefixFree` — no name is a proper prefix of another
* `Event.sorted`, `Codec.written` — an event as a codec writes it

## Main results

* `Bytes.ofText_lt_iff` — the order of UTF-8 bytes is the order of code points
* `Codec.message_eq_ofEvent` — what a codec writes is the message of an event in its own order
* `Event.inWritingOrder_sorted`, `Event.InWritingOrder.ascending_iff`
-/

namespace CloudEvents

/-! ### Bytes and code points -/

theorem Bytes.ofText_eq_flatMap (text : String) :
    ofText text = text.toList.flatMap String.utf8EncodeChar := by
  rw [ofText, String.toUTF8_eq_toByteArray, ← String.utf8Encode_toList, List.utf8Encode]
  simp

/-- The form of the smaller code point is the smaller one, whatever stands behind. -/
theorem utf8EncodeChar_append_lt {c d : Char} (h : c < d) (rest rest' : Bytes) :
    String.utf8EncodeChar c ++ rest < String.utf8EncodeChar d ++ rest' := by
  have hlt : c.val.toNat < d.val.toNat := h
  have hmax : d.val.toNat < 1114112 := by
    have := d.valid
    simp only [UInt32.isValidChar, Nat.isValidChar] at this
    omega
  simp only [String.utf8EncodeChar]
  generalize c.val.toNat = m at *
  generalize d.val.toNat = n at *
  -- one case for each pair of lengths; those in which the smaller has the longer form are absurd
  split_ifs <;>
    simp only [List.cons_append, List.nil_append, List.cons_lt_cons_iff, UInt8.lt_iff_toNat_lt,
      ← UInt8.toNat_inj, UInt8.toNat_ofNat'] <;>
    simp (disch := omega) only [Nat.mod_eq_of_lt] <;>
    omega

theorem Bytes.ofText_lt_of_lt {a b : List Char} (h : a < b) :
    a.flatMap String.utf8EncodeChar < b.flatMap String.utf8EncodeChar := by
  induction a generalizing b with
  | nil =>
    cases b with
    | nil => exact absurd h (List.not_lt_nil [])
    | cons d ds =>
      rw [List.flatMap_nil, List.flatMap_cons]
      obtain ⟨x, xs, hx⟩ := List.exists_cons_of_ne_nil (String.utf8EncodeChar_ne_nil (c := d))
      rw [hx]
      exact List.nil_lt_cons x _
  | cons c cs ih =>
    cases b with
    | nil => exact absurd h (List.not_lt_nil _)
    | cons d ds =>
      rw [List.flatMap_cons, List.flatMap_cons]
      rcases List.cons_lt_cons_iff.mp h with hcd | ⟨rfl, hrest⟩
      · exact utf8EncodeChar_append_lt hcd _ _
      · exact List.append_left_lt (ih hrest)

/-- **The order of UTF-8 bytes is the order of code points.** -/
theorem Bytes.ofText_lt_iff {a b : String} : ofText a < ofText b ↔ a < b := by
  have hmono {a b : String} (h : a < b) : ofText a < ofText b := by
    rw [ofText_eq_flatMap, ofText_eq_flatMap]
    exact ofText_lt_of_lt h
  constructor
  · intro h
    rcases lt_trichotomy a b with hab | rfl | hba
    · exact hab
    · exact absurd h (List.lt_irrefl _)
    · exact absurd (hmono hba) (List.lt_asymm h)
  · exact hmono

/-! ### The order -/

/-- The order in which names are written: the ascending one of their bytes, except that a name comes
before its proper prefixes. -/
def WrittenBefore (a b : String) : Prop :=
  (Bytes.ofText a < Bytes.ofText b ∧ ¬ Bytes.ofText a <+: Bytes.ofText b)
    ∨ (Bytes.ofText b <+: Bytes.ofText a ∧ a ≠ b)

instance (a b : String) : Decidable (WrittenBefore a b) :=
  inferInstanceAs (Decidable (_ ∨ _))

/-- No name is a proper prefix of another. -/
def PrefixFree (names : List String) : Prop :=
  ∀ a ∈ names, ∀ b ∈ names, Bytes.ofText a <+: Bytes.ofText b → a = b

theorem Bytes.precedes_iff {as bs : Bytes} :
    precedes as bs = true ↔ (as < bs ∧ ¬ as <+: bs) ∨ bs <+: as := by
  induction as generalizing bs with
  | nil => cases bs <;> simp [precedes]
  | cons a as ih =>
    cases bs with
    | nil => simp [precedes]
    | cons b bs =>
      rw [precedes_cons, ih, List.cons_lt_cons_iff, List.cons_prefix_cons, List.cons_prefix_cons,
        ← UInt8.lt_iff_toNat_lt]
      by_cases hab : a = b
      · subst hab
        simp
      · simp [hab, Ne.symm hab]

theorem writtenBefore_of_precedes {a b : String}
    (h : Bytes.precedes (Bytes.ofText a) (Bytes.ofText b) = true) (hne : a ≠ b) :
    WrittenBefore a b :=
  (Bytes.precedes_iff.mp h).imp_right fun hfront => ⟨hfront, hne⟩

theorem lt_of_prefix {α : Type} [LT α] {as bs : List α} (h : as <+: bs) (hne : as ≠ bs) :
    as < bs := by
  obtain ⟨rest, rfl⟩ := h
  induction as with
  | nil =>
    cases rest with
    | nil => exact absurd rfl hne
    | cons x xs => exact List.nil_lt_cons x xs
  | cons a as ih =>
    refine List.cons_lt_cons_iff.mpr (Or.inr ⟨rfl, ih ?_⟩)
    intro heq
    exact hne (congrArg (a :: ·) heq)

/-! ### Events in that order -/

/-- The event with its attributes sorted. -/
def Event.sorted (e : Event) : Event :=
  { e with attributes := EventMessage.sortEntries e.attributes }

/-- The event with its attributes in the order in which a codec writes them. -/
def Codec.written (c : Codec) (e : Event) : Event := if c.deterministic then e.sorted else e

/-- The attributes of an event, each once, in the order in which names are written. -/
structure Event.InWritingOrder (e : Event) (entries : NameMap AttributeValue) : Prop where
  perm : entries.Perm e.attributes
  pairwise : entries.Pairwise fun a b => WrittenBefore a.1 b.1

namespace Event

variable {e : Event} {entries : NameMap AttributeValue}

instance : Decidable (e.InWritingOrder entries) :=
  decidable_of_iff (entries.Perm e.attributes ∧ entries.Pairwise fun a b => WrittenBefore a.1 b.1)
    ⟨fun h => ⟨h.1, h.2⟩, fun h => ⟨h.perm, h.pairwise⟩⟩

theorem perm_sorted (e : Event) : e.sorted.attributes.Perm e.attributes :=
  List.mergeSort_perm e.attributes _

theorem valid_sorted (h : e.Valid) : e.sorted.Valid := valid_of_perm h e.perm_sorted

theorem inWritingOrder_sorted (h : e.attributes.names.Nodup) :
    e.InWritingOrder e.sorted.attributes where
  perm := e.perm_sorted
  pairwise := by
    have hnodup : (e.sorted.attributes.map Prod.fst).Nodup :=
      (e.perm_sorted.map Prod.fst).nodup_iff.mpr h
    have hsorted := EventMessage.pairwise_sortEntries e.attributes
    refine (hsorted.and (List.pairwise_map.mp hnodup)).imp ?_
    rintro a b ⟨hab, hne⟩
    exact writtenBefore_of_precedes hab hne

/-- There is one such order. -/
theorem InWritingOrder.eq_sorted (h : e.InWritingOrder entries)
    (hnodup : e.attributes.names.Nodup) : entries = e.sorted.attributes := by
  have hpairwise : entries.Pairwise
      fun a b => Bytes.precedes (Bytes.ofText a.1) (Bytes.ofText b.1) = true := by
    refine h.pairwise.imp ?_
    intro a b hab
    exact Bytes.precedes_iff.mpr (hab.imp_right And.left)
  have hself : EventMessage.sortEntries entries = entries := List.mergeSort_of_pairwise hpairwise
  have hnames : (NameMap.names entries).Nodup := (h.perm.map Prod.fst).nodup_iff.mpr hnodup
  rw [← hself, EventMessage.sortEntries_eq_of_perm hnames h.perm]
  rfl

/-- **Names are written in the order of their code points if and only if none is a proper prefix of
another.** -/
theorem InWritingOrder.ascending_iff (h : e.InWritingOrder entries) :
    (entries.Pairwise fun a b => a.1 < b.1) ↔ PrefixFree e.attributes.names := by
  have hnames : (NameMap.names entries).Perm e.attributes.names := h.perm.map Prod.fst
  constructor
  · intro hascending a ha b hb hfront
    by_contra hne
    have hlt : Bytes.ofText a < Bytes.ofText b :=
      lt_of_prefix hfront fun heq => hne (Bytes.ofText_injective heq)
    have hpairwise : (NameMap.names entries).Pairwise fun a b => a < b ∧ WrittenBefore a b :=
      List.pairwise_map.mpr (hascending.and h.pairwise)
    -- of the two names the prefix is the smaller one, and the one that is written later
    have hfirst : ¬ WrittenBefore a b := by
      rintro (⟨-, hnot⟩ | ⟨hback, -⟩)
      · exact hnot hfront
      · exact hne (Bytes.ofText_injective (hfront.eq_of_length_le hback.length_le))
    let Related (x y : String) : Prop :=
      (x < y ∧ WrittenBefore x y) ∨ (y < x ∧ WrittenBefore y x)
    have : Std.Symm Related := ⟨fun _ _ => Or.symm⟩
    have hrelated : (NameMap.names entries).Pairwise Related := hpairwise.imp Or.inl
    rcases hrelated.forall (hnames.mem_iff.mpr ha) (hnames.mem_iff.mpr hb) hne with
      ⟨-, hwritten⟩ | ⟨hba, -⟩
    · exact hfirst hwritten
    · exact List.lt_asymm hlt (Bytes.ofText_lt_iff.mpr hba)
  · intro hfree
    refine h.pairwise.imp_of_mem ?_
    intro a b ha hb hab
    rcases hab with ⟨hlt, -⟩ | ⟨hfront, hne⟩
    · exact Bytes.ofText_lt_iff.mp hlt
    · have ha : a.1 ∈ e.attributes.names := hnames.mem_iff.mp (List.mem_map_of_mem ha)
      have hb : b.1 ∈ e.attributes.names := hnames.mem_iff.mp (List.mem_map_of_mem hb)
      exact absurd (hfree b.1 hb a.1 ha hfront).symm hne

end Event

/-! ### What a codec writes -/

namespace Codec

variable {e : Event}

/-- **What a codec writes** is the message of the event, with the attributes in the codec's order.
-/
theorem message_eq_ofEvent (c : Codec) (h : e.attributes.names.Nodup) :
    c.message e = .ofEvent (c.written e) := by
  have hsort : EventMessage.sortEntries (EventMessage.ofEvent e).attributes
      = (EventMessage.ofEvent e.sorted).attributes := by
    rw [EventMessage.ofEvent, EventMessage.ofEvent, Event.sorted, EventMessage.sortEntries,
      EventMessage.sortEntries, List.map_mergeSort]
    exact fun _ _ _ _ => rfl
  rw [message, EventMessage.fill_eq_ofEvent h, written]
  split
  · rw [EventMessage.canonical, hsort]
    rfl
  · rfl

theorem perm_written (c : Codec) (e : Event) : (c.written e).attributes.Perm e.attributes := by
  rw [written]
  split
  · exact e.perm_sorted
  · exact List.Perm.refl _

theorem written_eq (c : Codec) (e : Event) :
    c.written e = { e with attributes := (c.written e).attributes } := by
  rw [written]
  split <;> rfl

theorem valid_written (c : Codec) (h : e.Valid) : (c.written e).Valid := by
  rw [written_eq]
  exact Event.valid_of_perm h (c.perm_written e)

end Codec

end CloudEvents
