/-!
# Finite maps keyed by name

A map is the list of its entries in the order in which the names first came. Writing an entry keeps
the place of a name that is already there, and a name that is new goes to the end. The order is
kept because reports follow it, but it carries no meaning: two maps are the same map when every
name looks up the same value in both, which is `NameMap.Equiv`.

Core's `List.lookup` is the view. Every operation below has one lemma about it, and nothing else
unfolds the operations.

## Main definitions

* `NameMap.insert`, `NameMap.erase` — write or remove one entry
* `NameMap.ofList` — many entries, the last of one name wins
* `NameMap.overriddenBy` — the entries of one map, written over those of another
* `NameMap.Equiv`, `NameMap.same` — the relation, and the test that decides it

## Main results

* `NameMap.lookup_insert`, `NameMap.lookup_erase`, `NameMap.lookup_overriddenBy`
* `NameMap.ofList_spec` — what a map made of a list holds
* `NameMap.ofList_eq_self` — a list without repeated names is the map that it makes
* `NameMap.lookup_eq_some_iff_mem` — looking up is finding an entry
* `NameMap.same_iff_equiv`
-/

namespace CloudEvents

universe u

/-- Entries by name, in order of first insertion. -/
abbrev NameMap (α : Type u) (τ : Type := String) := List (τ × α)

namespace NameMap

variable {α : Type u} {τ : Type}

/-- The names, in the order of the entries. -/
def names (m : NameMap α τ) : List τ := m.map Prod.fst

/-- Sets the entry of a name: in its place if the name has one, at the end if it is new. -/
def insert (name : String) (value : α) : NameMap α → NameMap α
  | [] => [(name, value)]
  | entry :: rest =>
    if entry.1 = name then (name, value) :: rest else entry :: insert name value rest

/-- Removes every entry of a name. -/
def erase (name : String) : NameMap α → NameMap α
  | [] => []
  | entry :: rest => if entry.1 = name then erase name rest else entry :: erase name rest

/-- The map that holds, for each name, the last of its values. -/
def ofList (entries : List (String × α)) : NameMap α :=
  entries.foldl (fun m (name, value) => insert name value m) []

/-- The entries of a list, written over those of a map one by one. -/
def overriddenBy (m : NameMap α) (entries : List (String × α)) : NameMap α :=
  entries.foldl (fun held (name, value) => insert name value held) m

/-! ### The view -/

theorem lookup_cons (name : String) (entry : String × α) (rest : NameMap α) :
    List.lookup name (entry :: rest)
      = if name = entry.1 then some entry.2 else List.lookup name rest := by
  rw [List.lookup_cons]
  by_cases h : name = entry.1
  · rw [if_pos h, beq_iff_eq.2 h]
  · rw [if_neg h, beq_eq_false_iff_ne.2 h]

theorem lookup_insert (name : String) (value : α) (m : NameMap α) (other : String) :
    (insert name value m).lookup other = if other = name then some value else m.lookup other := by
  induction m with
  | nil => simp [insert, lookup_cons]
  | cons entry rest ih =>
    simp only [insert]
    split
    · rename_i hk
      subst hk
      by_cases h : other = entry.1 <;> simp [lookup_cons, h]
    · rename_i hk
      by_cases h : other = entry.1
      · subst h
        simp [lookup_cons, hk]
      · simp [lookup_cons, h, ih]

theorem lookup_erase (name : String) (m : NameMap α) (other : String) :
    (erase name m).lookup other = if other = name then none else m.lookup other := by
  induction m with
  | nil => simp [erase]
  | cons entry rest ih =>
    simp only [erase]
    split
    · rename_i hk
      subst hk
      rw [ih]
      by_cases h : other = entry.1 <;> simp [lookup_cons, h]
    · rename_i hk
      by_cases h : other = entry.1
      · subst h
        simp [lookup_cons, hk]
      · simp [lookup_cons, h, ih]

@[simp] theorem names_nil : names ([] : NameMap α τ) = [] := rfl

@[simp] theorem names_cons (entry : τ × α) (rest : NameMap α τ) :
    names (entry :: rest) = entry.1 :: names rest := rfl

/-- Writing under a name that is there leaves the names as they are; a new one joins at the end. -/
theorem names_insert (name : String) (value : α) (m : NameMap α) :
    (insert name value m).names = if name ∈ m.names then m.names else m.names ++ [name] := by
  induction m with
  | nil => rfl
  | cons entry rest ih =>
    by_cases hk : entry.1 = name
    · simp [insert, hk]
    · by_cases h : name ∈ names rest
      · rw [if_pos h] at ih
        simp [insert, hk, h, ih]
      · rw [if_neg h] at ih
        simp [insert, hk, h, ih, Ne.symm hk]

theorem names_erase (name : String) (m : NameMap α) :
    (erase name m).names = m.names.filter (· ≠ name) := by
  induction m with
  | nil => rfl
  | cons entry rest ih =>
    by_cases hk : entry.1 = name
    · rw [erase, if_pos hk, ih, names_cons, List.filter_cons_of_neg (by simpa using hk)]
    · rw [erase, if_neg hk, names_cons, ih, names_cons,
        List.filter_cons_of_pos (by simpa using hk)]

/-! ### Distinct names -/

/-- A name that is new goes to the end. -/
theorem insert_of_not_mem {name : String} {value : α} {m : NameMap α} (h : name ∉ m.names) :
    insert name value m = m ++ [(name, value)] := by
  induction m with
  | nil => rfl
  | cons entry rest ih =>
    simp only [names_cons, List.mem_cons, not_or] at h
    rw [insert, if_neg (Ne.symm h.1), ih h.2, List.cons_append]

theorem nodup_insert {m : NameMap α} (h : m.names.Nodup) (name : String) (value : α) :
    (insert name value m).names.Nodup := by
  rw [names_insert]
  split
  · exact h
  · rename_i hn
    exact List.nodup_append.2 ⟨h, by simp, by simpa using fun a ha (he : a = name) => hn (he ▸ ha)⟩

/-- Of two values written under one name the later one stays. -/
theorem insert_insert (name : String) (value value' : α) (m : NameMap α) :
    insert name value' (insert name value m) = insert name value' m := by
  induction m with
  | nil => simp [insert]
  | cons entry rest ih => by_cases hk : entry.1 = name <;> simp [insert, hk, ih]

/-- Writing under a name that is there and under another one can be done in either order. -/
theorem insert_comm {name other : String} (hne : name ≠ other) {m : NameMap α} (h : name ∈ m.names)
    (value value' : α) :
    insert other value' (insert name value m) = insert name value (insert other value' m) := by
  induction m with
  | nil => simp at h
  | cons entry rest ih =>
    by_cases hk : entry.1 = name
    · simp [insert, hk, hne]
    · have hrest : name ∈ names rest := (List.mem_cons.1 h).resolve_left (Ne.symm hk)
      by_cases ho : entry.1 = other
      · simp [insert, ho, Ne.symm hne]
      · simp [insert, hk, ho, ih hrest]

theorem mem_insert {name : String} {value : α} {m : NameMap α} {entry : String × α}
    (h : entry ∈ insert name value m) : entry = (name, value) ∨ entry ∈ m := by
  induction m with
  | nil => exact Or.inl (List.mem_singleton.1 h)
  | cons head rest ih =>
    rw [insert] at h
    split at h
    · exact (List.mem_cons.1 h).imp_right (List.mem_cons_of_mem head)
    · rcases List.mem_cons.1 h with rfl | h
      · exact Or.inr List.mem_cons_self
      · exact (ih h).imp_right (List.mem_cons_of_mem head)

theorem mem_of_mem_erase {name : String} {m : NameMap α} {entry : String × α}
    (h : entry ∈ erase name m) : entry ∈ m := by
  induction m with
  | nil => exact h
  | cons head rest ih =>
    rw [erase] at h
    split at h
    · exact List.mem_cons_of_mem head (ih h)
    · rcases List.mem_cons.1 h with rfl | h
      · exact List.mem_cons_self
      · exact List.mem_cons_of_mem head (ih h)

@[simp] theorem overriddenBy_nil (m : NameMap α) : m.overriddenBy [] = m := rfl

theorem overriddenBy_cons (m : NameMap α) (entry : String × α) (rest : List (String × α)) :
    m.overriddenBy (entry :: rest) = (insert entry.1 entry.2 m).overriddenBy rest := rfl

/-- Writing over a map keeps its names distinct, and brings in nothing but what is written. -/
theorem overriddenBy_spec {m : NameMap α} (h : m.names.Nodup) (entries : List (String × α)) :
    (m.overriddenBy entries).names.Nodup
      ∧ ∀ entry ∈ m.overriddenBy entries, entry ∈ m ∨ entry ∈ entries := by
  induction entries generalizing m with
  | nil => exact ⟨h, fun entry hm => Or.inl hm⟩
  | cons head rest ih =>
    obtain ⟨hnodup, hmem⟩ := ih (nodup_insert h head.1 head.2)
    refine ⟨hnodup, fun entry hm => ?_⟩
    rcases hmem entry hm with hheld | hrest
    · rcases mem_insert hheld with rfl | hm'
      · exact Or.inr List.mem_cons_self
      · exact Or.inl hm'
    · exact Or.inr (List.mem_cons_of_mem head hrest)

/-- A map made of a list has distinct names, and holds nothing but entries of the list. -/
theorem ofList_spec (entries : List (String × α)) :
    (ofList entries).names.Nodup ∧ ∀ entry ∈ ofList entries, entry ∈ entries :=
  (overriddenBy_spec (m := []) List.nodup_nil entries).imp id fun h entry hm =>
    (h entry hm).resolve_left List.not_mem_nil

/-- Entries under names that are all new go to the end. -/
theorem overriddenBy_eq_append {m entries : NameMap α} (h : (m ++ entries).names.Nodup) :
    m.overriddenBy entries = m ++ entries := by
  induction entries generalizing m with
  | nil => rw [overriddenBy_nil, List.append_nil]
  | cons entry rest ih =>
    have hsplit : m ++ entry :: rest = (m ++ [entry]) ++ rest := List.append_cons m entry rest
    have hnew : entry.1 ∉ m.names := by
      intro hm
      rw [names, List.map_append] at h
      exact (List.nodup_append.1 h).2.2 _ hm _ List.mem_cons_self rfl
    rw [overriddenBy_cons, insert_of_not_mem hnew, ih (hsplit ▸ h), ← hsplit]

/-- Distinct names keep their entries as they are. -/
theorem ofList_eq_self {m : NameMap α} (h : m.names.Nodup) : ofList m = m :=
  overriddenBy_eq_append (m := []) h

/-! ### Sameness -/

/-- Equality of maps: each name has the same value, whatever the order of the entries. -/
def Equiv (a b : NameMap α) : Prop := ∀ name, a.lookup name = b.lookup name

/-- Tests the names that either map holds; all others are in neither. -/
def same [DecidableEq α] (a b : NameMap α) : Bool :=
  (a.names ++ b.names).all fun name => a.lookup name = b.lookup name

theorem lookup_eq_none_of_not_mem {m : NameMap α} {name : String} (h : name ∉ m.names) :
    m.lookup name = none := by
  induction m with
  | nil => rfl
  | cons entry rest ih =>
    simp only [names_cons, List.mem_cons, not_or] at h
    rw [lookup_cons, if_neg h.1]
    exact ih h.2

/-- A map that is written over another hides it under its own names and nowhere else. -/
theorem lookup_overriddenBy (m : NameMap α) {entries : NameMap α} (h : entries.names.Nodup)
    (name : String) :
    (m.overriddenBy entries).lookup name = (entries.lookup name).or (m.lookup name) := by
  induction entries generalizing m with
  | nil => rfl
  | cons entry rest ih =>
    obtain ⟨hnew, hrest⟩ := List.nodup_cons.1 h
    rw [overriddenBy_cons, ih _ hrest, lookup_insert, lookup_cons]
    by_cases hk : name = entry.1
    · subst hk
      have hnone := lookup_eq_none_of_not_mem hnew
      simp [hnone]
    · rw [if_neg hk, if_neg hk]

/-- Values that are changed are found under the names of the old ones. -/
theorem lookup_map {β : Type u} (f : String → α → β) (m : NameMap α) (name : String) :
    (m.map fun entry => (entry.1, f entry.1 entry.2)).lookup name
      = (m.lookup name).map (f name) := by
  induction m with
  | nil => rfl
  | cons entry rest ih =>
    rw [List.map_cons, lookup_cons, lookup_cons, ih]
    by_cases h : name = entry.1
    · subst h
      rw [if_pos rfl, if_pos rfl, Option.map_some]
    · rw [if_neg h, if_neg h]

theorem map_insert {β : Type u} (f : α → β) (name : String) (value : α) (m : NameMap α) :
    (insert name value m).map (fun entry => (entry.1, f entry.2))
      = insert name (f value) (m.map fun entry => (entry.1, f entry.2)) := by
  induction m with
  | nil => rfl
  | cons entry rest ih => by_cases hk : entry.1 = name <;> simp [insert, hk, ih]

/-- Values may be changed before or after one map is written over another. -/
theorem map_overriddenBy {β : Type u} (f : α → β) (m entries : NameMap α) :
    (m.overriddenBy entries).map (fun entry => (entry.1, f entry.2))
      = overriddenBy (m.map fun entry => (entry.1, f entry.2))
          (entries.map fun entry => (entry.1, f entry.2)) := by
  induction entries generalizing m with
  | nil => rfl
  | cons entry rest ih =>
    rw [overriddenBy_cons, ih, map_insert, List.map_cons, overriddenBy_cons]

theorem lookup_eq_some_iff_mem {m : NameMap α} (h : m.names.Nodup)
    {name : String} {value : α} : m.lookup name = some value ↔ (name, value) ∈ m := by
  induction m with
  | nil => simp
  | cons entry rest ih =>
    obtain ⟨hnew, hrest⟩ := List.nodup_cons.1 h
    obtain ⟨key, held⟩ := entry
    rw [lookup_cons, List.mem_cons, ← ih hrest]
    by_cases hk : name = key
    · subst hk
      have hnone := lookup_eq_none_of_not_mem hnew
      simp only at hnone
      simp [hnone, eq_comm]
    · simp [hk]

theorem same_iff_equiv [DecidableEq α] {a b : NameMap α} : same a b = true ↔ Equiv a b := by
  simp only [same, List.all_eq_true, List.mem_append, decide_eq_true_eq]
  constructor
  · intro h name
    by_cases ha : name ∈ a.names
    · exact h name (Or.inl ha)
    · by_cases hb : name ∈ b.names
      · exact h name (Or.inr hb)
      · rw [lookup_eq_none_of_not_mem ha, lookup_eq_none_of_not_mem hb]
  · intro h name _
    exact h name

instance [DecidableEq α] (a b : NameMap α) : Decidable (Equiv a b) :=
  decidable_of_iff _ same_iff_equiv

end NameMap

end CloudEvents
