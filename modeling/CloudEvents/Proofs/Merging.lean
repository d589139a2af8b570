import CloudEvents.Proofs.Framing
import CloudEvents.Wire.BatchMessage

/-!
# Merging

A message is read by applying its records to what is held. The laws of that one rule are proved for
any `apply`, and each message type instantiates them with a fact about a single record.

## Main results

* `mergeMessage_encodeRecords` — written records are applied in order
* `mergeMessage_append` — a body after another one is merged into what the first one leaves
* `mergeMessage_invariant` — what every record preserves, a message body preserves
* `mergeMessage_mono` and `EventMessage.parse_mono` — levels to spare change nothing, at any
  nesting
* `EventMessage.names_nodup_of_parse` — a parsed message holds a map, whatever entries came
-/

namespace CloudEvents

variable {α : Type} {apply apply' : α → Record → Option α} {depth : Nat}

/-! ### Laws of merging -/

theorem mergeMessage_eq_some_iff {held result : α} {body : Bytes} :
    mergeMessage apply depth held body = some result
      ↔ ∃ rs, readRecords depth [] body = some rs ∧ rs.foldlM apply held = some result :=
  Option.bind_eq_some_iff

theorem mergeMessage_of_readRecords {held : α} {body : Bytes} {rs : List Record}
    (h : readRecords depth [] body = some rs) :
    mergeMessage apply depth held body = rs.foldlM apply held := by
  rw [mergeMessage, h, Option.bind_some]

theorem mergeMessage_encodeRecords {rs : List Record} (h : ∀ r ∈ rs, r.Fits depth) (held : α) :
    mergeMessage apply depth held (encodeRecords rs) = rs.foldlM apply held :=
  mergeMessage_of_readRecords (readRecords_encodeRecords h)

theorem foldlM_append_eq_some {rs rs' : List Record} {first second third : α}
    (h : rs.foldlM apply first = some second) (h' : rs'.foldlM apply second = some third) :
    (rs ++ rs').foldlM apply first = some third := by
  rw [List.foldlM_append, h]
  exact h'

/-- A body that follows another one is merged into what the first one leaves. -/
theorem mergeMessage_append {held middle : α} {body : Bytes}
    (h : mergeMessage apply depth held body = some middle) (more : Bytes) :
    mergeMessage apply depth held (body ++ more) = mergeMessage apply depth middle more := by
  obtain ⟨rs, hrs, hfold⟩ := mergeMessage_eq_some_iff.mp h
  rw [mergeMessage, mergeMessage, readRecords_append hrs more]
  cases readRecords depth [] more with
  | none => rfl
  | some rs' =>
    show (rs ++ rs').foldlM apply held = rs'.foldlM apply middle
    rw [List.foldlM_append, hfold]
    rfl

/-- What can be exchanged with every record can be exchanged with a body. -/
theorem mergeMessage_map {f : α → α} (hf : ∀ a r, apply (f a) r = (apply a r).map f) (held : α)
    (body : Bytes) :
    mergeMessage apply depth (f held) body = (mergeMessage apply depth held body).map f := by
  have hfold (rs : List Record) : ∀ a, rs.foldlM apply (f a) = (rs.foldlM apply a).map f := by
    induction rs with
    | nil => exact fun a => rfl
    | cons r rs ih =>
      intro a
      rw [List.foldlM_cons, List.foldlM_cons, hf]
      cases apply a r with
      | none => rfl
      | some next => exact ih next
  rw [mergeMessage, mergeMessage]
  cases readRecords depth [] body with
  | none => rfl
  | some rs => exact hfold rs held

/-- The states before and after one record among others. -/
theorem foldlM_append_cons_eq_some_iff {front back : List Record} {r : Record} {held result : α} :
    (front ++ r :: back).foldlM apply held = some result
      ↔ ∃ before after, front.foldlM apply held = some before ∧ apply before r = some after
        ∧ back.foldlM apply after = some result := by
  rw [List.foldlM_append]
  constructor
  · intro h
    obtain ⟨before, hbefore, hrest⟩ := Option.bind_eq_some_iff.mp h
    obtain ⟨after, hafter, hback⟩ := Option.bind_eq_some_iff.mp hrest
    exact ⟨before, after, hbefore, hafter, hback⟩
  · rintro ⟨before, after, hbefore, hafter, hback⟩
    exact Option.bind_eq_some_iff.mpr
      ⟨before, hbefore, Option.bind_eq_some_iff.mpr ⟨after, hafter, hback⟩⟩

/-- Records that are applied one after the other preserve what each of them preserves. -/
theorem foldlM_invariant {P : α → Prop}
    (hstep : ∀ {a a' : α} {r : Record}, P a → apply a r = some a' → P a')
    {rs : List Record} {held result : α} (hheld : P held)
    (h : rs.foldlM apply held = some result) : P result := by
  induction rs generalizing held with
  | nil =>
    cases h
    exact hheld
  | cons r rs ih =>
    obtain ⟨next, hnext, hrest⟩ := Option.bind_eq_some_iff.mp h
    exact ih (hstep hheld hnext) hrest

/-- Read backwards: what holds at the end and tells something about each step before it, tells it
about all records that were applied. -/
theorem foldlM_backward {P : α → Prop} {Q : Record → Prop}
    (hstep : ∀ {a a' : α} {r : Record}, apply a r = some a' → P a' → P a ∧ Q r)
    {rs : List Record} {held result : α} (h : rs.foldlM apply held = some result)
    (hresult : P result) : P held ∧ ∀ r ∈ rs, Q r := by
  induction rs generalizing held with
  | nil =>
    cases h
    exact ⟨hresult, List.forall_mem_nil Q⟩
  | cons r rs ih =>
    obtain ⟨next, hnext, hrest⟩ := Option.bind_eq_some_iff.mp h
    obtain ⟨hheld, hrs⟩ := ih hrest
    obtain ⟨hfirst, hr⟩ := hstep hnext hheld
    exact ⟨hfirst, List.forall_mem_cons.mpr ⟨hr, hrs⟩⟩

theorem mergeMessage_invariant {P : α → Prop}
    (hstep : ∀ {a a' : α} {r : Record}, P a → apply a r = some a' → P a')
    {held result : α} {body : Bytes} (hheld : P held)
    (h : mergeMessage apply depth held body = some result) : P result := by
  obtain ⟨rs, -, hrs⟩ := mergeMessage_eq_some_iff.mp h
  exact foldlM_invariant hstep hheld hrs

theorem foldlM_mono
    (happly : ∀ {a a' : α} {r : Record}, apply a r = some a' → apply' a r = some a')
    {rs : List Record} {held result : α} (h : rs.foldlM apply held = some result) :
    rs.foldlM apply' held = some result := by
  induction rs generalizing held with
  | nil => exact h
  | cons r rs ih =>
    obtain ⟨next, hnext, hrest⟩ := Option.bind_eq_some_iff.mp h
    exact Option.bind_eq_some_iff.mpr ⟨next, happly hnext, ih hrest⟩

/-- A body that is accepted with some levels left is accepted, and read alike, with more, provided
that each of its records is. -/
theorem mergeMessage_mono {depth' : Nat} (hd : depth ≤ depth')
    (happly : ∀ {a a' : α} {r : Record}, apply a r = some a' → apply' a r = some a')
    {held result : α} {body : Bytes} (h : mergeMessage apply depth held body = some result) :
    mergeMessage apply' depth' held body = some result := by
  obtain ⟨rs, hr, hrs⟩ := mergeMessage_eq_some_iff.mp h
  exact mergeMessage_eq_some_iff.mpr ⟨rs, readRecords_mono hd hr, foldlM_mono happly hrs⟩

/-! ### Levels to spare -/

theorem AttributeMessage.apply_mono {depth' : Nat} (hd : depth ≤ depth')
    {m m' : AttributeMessage} {r : Record} (h : m.apply depth r = some m') :
    m.apply depth' r = some m' := by
  rw [AttributeMessage.apply] at h ⊢
  split at h
  case h_7 body _ _ =>
    obtain ⟨t, ht, rfl⟩ := Option.map_eq_some_iff.mp h
    exact Option.map_eq_some_iff.mpr ⟨t, mergeMessage_mono (by omega) (fun h => h) ht, rfl⟩
  all_goals exact h

theorem EntryMessage.apply_mono {depth' : Nat} (hd : depth ≤ depth') {m m' : EntryMessage}
    {r : Record} (h : m.apply depth r = some m') : m.apply depth' r = some m' := by
  rw [EntryMessage.apply] at h ⊢
  split at h
  case h_2 body _ _ =>
    obtain ⟨value, hv, rfl⟩ := Option.map_eq_some_iff.mp h
    refine Option.map_eq_some_iff.mpr ⟨value, mergeMessage_mono (by omega) ?_ hv, rfl⟩
    exact AttributeMessage.apply_mono (by omega)
  all_goals exact h

theorem EventMessage.apply_mono {depth' : Nat} (hd : depth ≤ depth') {m m' : EventMessage}
    {r : Record} (h : m.apply depth r = some m') : m.apply depth' r = some m' := by
  rw [EventMessage.apply] at h ⊢
  split at h
  case h_5 body _ _ =>
    obtain ⟨entry, he, rfl⟩ := Option.map_eq_some_iff.mp h
    refine Option.map_eq_some_iff.mpr ⟨entry, mergeMessage_mono (by omega) ?_ he, rfl⟩
    exact EntryMessage.apply_mono (by omega)
  case h_8 body _ _ =>
    obtain ⟨s, hs, rfl⟩ := Option.map_eq_some_iff.mp h
    exact Option.map_eq_some_iff.mpr ⟨s, mergeMessage_mono (by omega) (fun h => h) hs, rfl⟩
  all_goals exact h

/-- An event that is read inside a batch is read alike when it stands alone. -/
theorem EventMessage.parse_mono {depth' : Nat} (hd : depth ≤ depth') {body : Bytes}
    {m : EventMessage} (h : EventMessage.parse depth body = some m) :
    EventMessage.parse depth' body = some m :=
  mergeMessage_mono hd (EventMessage.apply_mono hd) h

/-! ### Entries make a map -/

theorem EventMessage.names_nodup_of_apply {m m' : EventMessage} {r : Record}
    (hm : m.attributes.names.Nodup) (h : m.apply depth r = some m') :
    m'.attributes.names.Nodup := by
  rw [EventMessage.apply] at h
  split at h
  case h_5 body _ _ =>
    obtain ⟨entry, -, rfl⟩ := Option.map_eq_some_iff.mp h
    rw [addEntry]
    split
    · exact NameMap.nodup_insert hm entry.key entry.value
    · exact hm
  case h_6 | h_9 =>
    cases h
    exact hm
  all_goals
    obtain ⟨_, -, rfl⟩ := Option.map_eq_some_iff.mp h
    exact hm

theorem EventMessage.names_nodup_of_parse {body : Bytes} {m : EventMessage}
    (h : EventMessage.parse depth body = some m) : m.attributes.names.Nodup := by
  have hempty : ({} : EventMessage).attributes.names.Nodup := List.nodup_nil
  exact mergeMessage_invariant EventMessage.names_nodup_of_apply hempty h

end CloudEvents
