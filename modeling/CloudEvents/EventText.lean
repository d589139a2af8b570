import CloudEvents.Batch

/-!
# Changing the texts of an event

An event holds texts in many places: its four required attributes, the names of the others, the
values of three kinds, a payload of text and the type of a typed payload. A change of the sort of
texts reaches all of them and leaves everything else as it is. It may be a change that some texts
have no image under, and then an event with such a text has none either.

The change that matters here takes an event of code points to the event of strings that it is, if it
is one. Nothing can be written of the others.

## Main definitions

* `Event.texts` — all that a change reaches
* `Event.mapText`, `Event.mapText?` — the change, and the change that may fail
* `Event.inStrings?`, `Event.inCodePoints` — the events of code points that are events of strings
* `Event.HoldsSurrogate` — the events of code points that are not

## Main results

* `Event.mapText?_eq_some_iff`, `Event.mapText?_eq_none_iff` — when a change succeeds
* `Event.inStrings?_eq_some_iff`, `Event.inStrings?_eq_none_iff`, and the same of batches
* `Event.valid_inCodePoints_iff` — the rules are the same for both sorts
-/

namespace CloudEvents

variable {σ τ : Type}

/-! ### Values -/

namespace AttributeValue

def texts : AttributeValue τ → List τ
  | string s | uri s | uriRef s => [s]
  | _ => []

def mapText (f : σ → τ) : AttributeValue σ → AttributeValue τ
  | boolean b => boolean b
  | integer i => integer i
  | string s => string (f s)
  | bytes b => bytes b
  | uri s => uri (f s)
  | uriRef s => uriRef (f s)
  | timestamp t => timestamp t

def mapText? (f : σ → Option τ) : AttributeValue σ → Option (AttributeValue τ)
  | boolean b => some (boolean b)
  | integer i => some (integer i)
  | string s => (f s).map string
  | bytes b => some (bytes b)
  | uri s => (f s).map uri
  | uriRef s => (f s).map uriRef
  | timestamp t => some (timestamp t)

variable {f : σ → Option τ} {v : AttributeValue σ}

theorem mapText?_eq_some_iff {g : τ → σ} (hf : ∀ s t, f s = some t ↔ s = g t)
    {w : AttributeValue τ} : v.mapText? f = some w ↔ v = w.mapText g := by
  cases v <;> cases w <;> simp [mapText?, mapText, hf]

theorem mapText?_eq_none_iff : v.mapText? f = none ↔ ∃ s ∈ v.texts, f s = none := by
  cases v <;> simp [mapText?, texts]

@[simp] theorem valid_mapText_iff {g : σ → τ} : (v.mapText g).Valid ↔ v.Valid := by
  cases v <;> rfl

end AttributeValue

/-! ### Payloads -/

namespace EventData

def texts : EventData τ → List τ
  | binary _ => []
  | text s => [s]
  | structured s => [s.typeUrl]

def mapText (f : σ → τ) : EventData σ → EventData τ
  | binary b => binary b
  | text s => text (f s)
  | structured s => structured { typeUrl := f s.typeUrl, value := s.value }

def mapText? (f : σ → Option τ) : EventData σ → Option (EventData τ)
  | binary b => some (binary b)
  | text s => (f s).map text
  | structured s =>
    (f s.typeUrl).map fun typeUrl => structured { typeUrl, value := s.value }

variable {f : σ → Option τ} {d : EventData σ}

theorem mapText?_eq_some_iff {g : τ → σ} (hf : ∀ s t, f s = some t ↔ s = g t)
    {d' : EventData τ} : d.mapText? f = some d' ↔ d = d'.mapText g := by
  cases d with
  | structured s =>
    cases d' with
    | structured s' =>
      obtain ⟨typeUrl, value⟩ := s
      obtain ⟨typeUrl', value'⟩ := s'
      simp only [mapText?, mapText, Option.map_eq_some_iff, hf, structured.injEq,
        StructuredData.mk.injEq]
      constructor
      · rintro ⟨_, rfl, rfl, rfl⟩
        exact ⟨rfl, rfl⟩
      · rintro ⟨rfl, rfl⟩
        exact ⟨_, rfl, rfl, rfl⟩
    | _ => simp [mapText?, mapText]
  | _ => cases d' <;> simp [mapText?, mapText, hf]

theorem mapText?_eq_none_iff : d.mapText? f = none ↔ ∃ s ∈ d.texts, f s = none := by
  cases d <;> simp [mapText?, texts]

end EventData

/-! ### Events -/

namespace Event

/-- The texts of an entry of the attribute map, its name among them. -/
def entryTexts (entry : τ × AttributeValue τ) : List τ := entry.1 :: entry.2.texts

/-- The texts of an event. -/
def texts (e : Event τ) : List τ :=
  RequiredField.all.map e.required ++ e.attributes.flatMap entryTexts
    ++ (e.data.map EventData.texts).getD []

def mapEntryText (f : σ → τ) (entry : σ × AttributeValue σ) : τ × AttributeValue τ :=
  (f entry.1, entry.2.mapText f)

def mapEntryText? (f : σ → Option τ) (entry : σ × AttributeValue σ) :
    Option (τ × AttributeValue τ) :=
  (f entry.1).bind fun name => (entry.2.mapText? f).map fun value => (name, value)

/-- The event with every text changed. -/
def mapText (f : σ → τ) (e : Event σ) : Event τ where
  id := f e.id
  source := f e.source
  specVersion := f e.specVersion
  type := f e.type
  attributes := e.attributes.map (mapEntryText f)
  data := e.data.map (·.mapText f)

/-- The event with every text changed, if every text can be. -/
def mapText? (f : σ → Option τ) (e : Event σ) : Option (Event τ) := do
  return {
    id := ← f e.id
    source := ← f e.source
    specVersion := ← f e.specVersion
    type := ← f e.type
    attributes := ← e.attributes.mapM (mapEntryText? f)
    data := ← e.data.mapM (·.mapText? f) }

section Change

variable {f : σ → Option τ} {e : Event σ}

theorem mapEntryText?_eq_some_iff {g : τ → σ} (hf : ∀ s t, f s = some t ↔ s = g t)
    (entry : σ × AttributeValue σ) (entry' : τ × AttributeValue τ) :
    mapEntryText? f entry = some entry' ↔ entry = mapEntryText g entry' := by
  obtain ⟨name, value⟩ := entry
  obtain ⟨name', value'⟩ := entry'
  simp [mapEntryText?, mapEntryText, Option.bind_eq_some_iff, hf,
    AttributeValue.mapText?_eq_some_iff hf]

theorem mapEntryText?_eq_none_iff {entry : σ × AttributeValue σ} :
    mapEntryText? f entry = none ↔ ∃ s ∈ entryTexts entry, f s = none := by
  simp only [mapEntryText?, entryTexts, List.mem_cons, exists_eq_or_imp,
    ← AttributeValue.mapText?_eq_none_iff]
  cases f entry.1 <;> simp

theorem mapM_data_eq_some_iff {g : τ → σ} (hf : ∀ s t, f s = some t ↔ s = g t)
    {data : Option (EventData σ)} {data' : Option (EventData τ)} :
    data.mapM (·.mapText? f) = some data' ↔ data = data'.map (·.mapText g) := by
  cases data <;> cases data' <;> simp [EventData.mapText?_eq_some_iff hf]

theorem mapM_data_eq_none_iff {data : Option (EventData σ)} :
    data.mapM (·.mapText? f) = none
      ↔ ∃ s ∈ (data.map EventData.texts).getD [], f s = none := by
  cases data <;> simp [EventData.mapText?_eq_none_iff]

/-- A change succeeds on the events that undoing it leads back to. -/
theorem mapText?_eq_some_iff {g : τ → σ} (hf : ∀ s t, f s = some t ↔ s = g t) {e' : Event τ} :
    e.mapText? f = some e' ↔ e = e'.mapText g := by
  obtain ⟨id, source, specVersion, type, attributes, data⟩ := e
  obtain ⟨id', source', specVersion', type', attributes', data'⟩ := e'
  simp only [mapText?, mapText, bind, pure, Option.bind_eq_some_iff, hf,
    mapM_eq_some_iff (mapEntryText?_eq_some_iff hf), mapM_data_eq_some_iff hf, Option.some.injEq,
    mk.injEq]
  constructor
  · rintro ⟨_, rfl, _, rfl, _, rfl, _, rfl, _, rfl, _, rfl, rfl, rfl, rfl, rfl, rfl, rfl⟩
    exact ⟨rfl, rfl, rfl, rfl, rfl, rfl⟩
  · rintro ⟨rfl, rfl, rfl, rfl, rfl, rfl⟩
    exact ⟨_, rfl, _, rfl, _, rfl, _, rfl, _, rfl, _, rfl, rfl, rfl, rfl, rfl, rfl, rfl⟩

/-- A change fails on the events that hold a text on which it fails. -/
theorem mapText?_eq_none_iff : e.mapText? f = none ↔ ∃ s ∈ e.texts, f s = none := by
  have hrequired : (∃ s ∈ RequiredField.all.map e.required, f s = none)
      ↔ f e.id = none ∨ f e.source = none ∨ f e.specVersion = none ∨ f e.type = none := by
    simp [RequiredField.all, required]
  have hentries : (∃ s ∈ e.attributes.flatMap entryTexts, f s = none)
      ↔ e.attributes.mapM (mapEntryText? f) = none := by
    simp only [mapM_eq_none_iff, mapEntryText?_eq_none_iff, List.mem_flatMap]
    constructor
    · rintro ⟨s, ⟨entry, hentry, hs⟩, hnone⟩
      exact ⟨entry, hentry, s, hs, hnone⟩
    · rintro ⟨entry, hentry, s, hs, hnone⟩
      exact ⟨s, ⟨entry, hentry, hs⟩, hnone⟩
  simp only [texts, List.mem_append, or_and_right, exists_or, hrequired, hentries,
    ← mapM_data_eq_none_iff, mapText?]
  -- What is left is about six parts, each of which has an image or not.
  cases f e.id <;> cases f e.source <;> cases f e.specVersion <;> cases f e.type <;>
    cases e.attributes.mapM (mapEntryText? f) <;> cases e.data.mapM (·.mapText? f) <;> simp

end Change

/-! ### Events of code points -/

/-- The event of strings that an event is, unless it holds a surrogate. -/
def inStrings? (e : Event CodePoints) : Option Event := e.mapText? CodePoints.string?

/-- The event of code points that an event is. -/
def inCodePoints (e : Event) : Event CodePoints := e.mapText CodePoints.ofString

/-- There is a surrogate in one of the texts. -/
def HoldsSurrogate (e : Event CodePoints) : Prop := ∃ t ∈ e.texts, ∃ place, .surrogate place ∈ t

theorem inStrings?_eq_some_iff {e : Event CodePoints} {e' : Event} :
    e.inStrings? = some e' ↔ e = e'.inCodePoints :=
  mapText?_eq_some_iff fun _ _ => CodePoints.string?_eq_some_iff

theorem inStrings?_eq_none_iff {e : Event CodePoints} :
    e.inStrings? = none ↔ e.HoldsSurrogate := by
  rw [inStrings?, mapText?_eq_none_iff, HoldsSurrogate]
  simp only [CodePoints.string?_eq_none_iff]

theorem inCodePoints_inj {e e' : Event} : e.inCodePoints = e'.inCodePoints ↔ e = e' := by
  rw [← inStrings?_eq_some_iff, inStrings?_eq_some_iff.mpr rfl, Option.some_inj]

theorem not_holdsSurrogate_inCodePoints (e : Event) : ¬ e.inCodePoints.HoldsSurrogate := by
  rw [← inStrings?_eq_none_iff, inStrings?_eq_some_iff.mpr rfl]
  exact Option.some_ne_none e

theorem required_inCodePoints (e : Event) (f : RequiredField) :
    e.inCodePoints.required f = CodePoints.ofString (e.required f) := by
  cases f <;> rfl

theorem names_inCodePoints (e : Event) :
    e.inCodePoints.attributes.names = e.attributes.names.map CodePoints.ofString := by
  rw [inCodePoints, mapText, NameMap.names, NameMap.names, List.map_map, List.map_map]
  rfl

/-- The rules of an event look at its texts only to compare them with strings. -/
theorem valid_inCodePoints_iff {e : Event} : e.inCodePoints.Valid ↔ e.Valid := by
  have hrequired (f : RequiredField) : e.inCodePoints.required f = Textual.ofString ""
      ↔ e.required f = "" := by
    rw [required_inCodePoints]
    exact CodePoints.ofString_inj
  have hnodup : e.inCodePoints.attributes.names.Nodup ↔ e.attributes.names.Nodup := by
    rw [names_inCodePoints, List.Nodup, List.pairwise_map]
    simp only [ne_eq, CodePoints.ofString_inj, List.Nodup]
  have hempty : (∀ name ∈ e.inCodePoints.attributes.names, name ≠ Textual.ofString "")
      ↔ ∀ name ∈ e.attributes.names, name ≠ "" := by
    rw [names_inCodePoints, List.forall_mem_map]
    exact forall₂_congr fun _ _ => not_congr CodePoints.ofString_inj
  have hreserved : (∀ name ∈ e.inCodePoints.attributes.names,
        name ∉ reservedNames.map Textual.ofString)
      ↔ ∀ name ∈ e.attributes.names, name ∉ reservedNames := by
    rw [names_inCodePoints, List.forall_mem_map]
    refine forall₂_congr fun name _ => not_congr ?_
    rw [List.mem_map]
    exact ⟨fun ⟨_, hmem, h⟩ => CodePoints.ofString_inj.mp h ▸ hmem, fun hmem => ⟨name, hmem, rfl⟩⟩
  have hvalues : (∀ entry ∈ e.inCodePoints.attributes, entry.2.Valid)
      ↔ ∀ entry ∈ e.attributes, entry.2.Valid := by
    rw [inCodePoints, mapText, List.forall_mem_map]
    exact forall₂_congr fun _ _ => AttributeValue.valid_mapText_iff
  constructor
  · intro h
    exact
      { required_ne_empty := fun f hf => h.required_ne_empty f ((hrequired f).mpr hf)
        names_nodup := hnodup.mp h.names_nodup
        name_ne_empty := hempty.mp h.name_ne_empty
        name_not_reserved := hreserved.mp h.name_not_reserved
        value_valid := hvalues.mp h.value_valid }
  · intro h
    exact
      { required_ne_empty := fun f hf => h.required_ne_empty f ((hrequired f).mp hf)
        names_nodup := hnodup.mpr h.names_nodup
        name_ne_empty := hempty.mpr h.name_ne_empty
        name_not_reserved := hreserved.mpr h.name_not_reserved
        value_valid := hvalues.mpr h.value_valid }

end Event

/-! ### Batches of code points -/

namespace Batch

/-- The batch of strings that a batch is, unless one of its events holds a surrogate. -/
def inStrings? (b : Batch CodePoints) : Option Batch :=
  (b.events.mapM Event.inStrings?).map Batch.mk

/-- The batch of code points that a batch is. -/
def inCodePoints (b : Batch) : Batch CodePoints := { events := b.events.map Event.inCodePoints }

/-- There is a surrogate in one of the events. -/
def HoldsSurrogate (b : Batch CodePoints) : Prop := ∃ e ∈ b.events, e.HoldsSurrogate

theorem inStrings?_eq_some_iff {b : Batch CodePoints} {b' : Batch} :
    b.inStrings? = some b' ↔ b = b'.inCodePoints := by
  obtain ⟨events⟩ := b
  obtain ⟨events'⟩ := b'
  simp [inStrings?, inCodePoints, mapM_eq_some_iff fun _ _ => Event.inStrings?_eq_some_iff]

theorem inCodePoints_inj {b b' : Batch} : b.inCodePoints = b'.inCodePoints ↔ b = b' := by
  rw [← inStrings?_eq_some_iff, inStrings?_eq_some_iff.mpr rfl, Option.some_inj]

theorem inStrings?_eq_none_iff {b : Batch CodePoints} : b.inStrings? = none ↔ b.HoldsSurrogate := by
  rw [inStrings?, Option.map_eq_none_iff, mapM_eq_none_iff, HoldsSurrogate]
  simp only [Event.inStrings?_eq_none_iff]

theorem not_holdsSurrogate_inCodePoints (b : Batch) : ¬ b.inCodePoints.HoldsSurrogate := by
  rw [← inStrings?_eq_none_iff, inStrings?_eq_some_iff.mpr rfl]
  exact Option.some_ne_none b

end Batch

end CloudEvents
