/-!
# Texts of code points

A text that a program holds is a sequence of code points. Nearly all of them are characters. The
others are surrogates, which only mean something in pairs and in another encoding, and a text that
holds one is a text like any other until it is to be written: UTF-8 has no form for it. The texts
without surrogates are those of `String`.

An event may be made of texts of either sort, and the rules that it has to satisfy are the same for
both. They compare its texts with a few fixed strings, which `Textual.ofString` has in both sorts.

## Main definitions

* `CodePoint`, `CodePoints` — what a text is made of, and the texts
* `CodePoints.ofString`, `CodePoints.string?` — the texts that are strings
* `Textual` — the strings among the texts of a sort

## Main results

* `CodePoints.string?_eq_some_iff`, `CodePoints.string?_eq_none_iff`
-/

namespace CloudEvents

/-! ### Lists whose elements may have no image -/

theorem mapM_eq_some_iff {α β : Type} {f : α → Option β} {g : β → α}
    (hf : ∀ a b, f a = some b ↔ a = g b) {l : List α} {images : List β} :
    l.mapM f = some images ↔ l = images.map g := by
  induction l generalizing images with
  | nil => cases images <;> simp
  | cons a rest ih =>
    cases images with
    | nil => simp [Option.bind_eq_some_iff]
    | cons b images => simp [Option.bind_eq_some_iff, hf, ih]

theorem mapM_eq_none_iff {α β : Type} {f : α → Option β} {l : List α} :
    l.mapM f = none ↔ ∃ a ∈ l, f a = none := by
  induction l with
  | nil => simp
  | cons a rest ih =>
    simp only [List.mapM_cons, List.mem_cons, exists_eq_or_imp, ← ih]
    cases f a <;> cases rest.mapM f <;> simp

/-! ### Code points -/

/-- A character, or a surrogate, of which there are 2048 from `D800` on. -/
inductive CodePoint where
  | character (c : Char)
  | surrogate (place : Fin 2048)
  deriving DecidableEq

def CodePoint.character? : CodePoint → Option Char
  | character c => some c
  | surrogate _ => none

/-- A text, whether or not it can be written. -/
abbrev CodePoints := List CodePoint

namespace CodePoints

def ofString (s : String) : CodePoints := s.toList.map .character

/-- The string that a text is, unless it holds a surrogate. -/
def string? (t : CodePoints) : Option String := (t.mapM CodePoint.character?).map String.ofList

theorem character?_eq_some_iff {p : CodePoint} {c : Char} :
    p.character? = some c ↔ p = .character c := by
  cases p <;> simp [CodePoint.character?]

theorem character?_eq_none_iff {p : CodePoint} :
    p.character? = none ↔ ∃ place, p = .surrogate place := by
  cases p <;> simp [CodePoint.character?]

/-- A text is a string in one way at most, which makes it that string. -/
theorem string?_eq_some_iff {t : CodePoints} {s : String} :
    t.string? = some s ↔ t = ofString s := by
  rw [string?, Option.map_eq_some_iff, ofString]
  constructor
  · rintro ⟨cs, hcs, rfl⟩
    rw [(mapM_eq_some_iff fun _ _ => character?_eq_some_iff).mp hcs, String.toList_ofList]
  · intro h
    exact ⟨s.toList, (mapM_eq_some_iff fun _ _ => character?_eq_some_iff).mpr h,
      String.ofList_toList⟩

theorem ofString_inj {s s' : String} : ofString s = ofString s' ↔ s = s' := by
  rw [← string?_eq_some_iff, string?_eq_some_iff.mpr rfl, Option.some_inj]

/-- Nothing but surrogates keeps a text from being a string. -/
theorem string?_eq_none_iff {t : CodePoints} :
    t.string? = none ↔ ∃ place, .surrogate place ∈ t := by
  rw [string?, Option.map_eq_none_iff, mapM_eq_none_iff]
  simp only [character?_eq_none_iff]
  constructor
  · rintro ⟨_, hmem, place, rfl⟩
    exact ⟨place, hmem⟩
  · rintro ⟨place, hmem⟩
    exact ⟨_, hmem, place, rfl⟩

end CodePoints

/-- A sort of texts, with the strings among them. -/
class Textual (τ : Type) where
  ofString : String → τ

instance : Textual String := ⟨fun s => s⟩

instance : Textual CodePoints := ⟨CodePoints.ofString⟩

@[simp] theorem Textual.ofString_string (s : String) : (ofString s : String) = s := rfl

end CloudEvents
