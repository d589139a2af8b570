import CloudEvents.Proofs.Merging

/-!
# Views of a message

Two byte strings are compared through a view of what has been read of them so far. A view is worth
its name if records act on it: what a record does to the part that is seen depends on that part
alone. Then records that change nothing of it can be left out, and a record can be replaced by one
that acts alike. Whether a record is accepted at all is the least that a view can show.

## Main definitions

* `ActsOnView` — records act on what is seen

## Main results

* `foldlM_view_filter` — only the records that change the view count
* `mergeMessage_view_congr`, `mergeMessage_view_replace` — the same for message bodies
-/

namespace CloudEvents

variable {α β : Type} {apply : α → Record → Option α} {view : α → β}

/-- Records act on what is seen of a held value if they act alike on values that look alike. -/
def ActsOnView (apply : α → Record → Option α) (view : α → β) : Prop :=
  ∀ {a a' : α} (r : Record), view a = view a' → (apply a r).map view = (apply a' r).map view

theorem map_bind_view_congr {f : α → Option α}
    (hf : ∀ {a a' : α}, view a = view a' → (f a).map view = (f a').map view) {x x' : Option α}
    (h : x.map view = x'.map view) : (x.bind f).map view = (x'.bind f).map view := by
  cases x with
  | none =>
    rw [Option.map_none] at h
    rw [Option.map_eq_none_iff.mp h.symm]
  | some a =>
    rw [Option.map_some] at h
    obtain ⟨a', rfl, hsame⟩ := Option.map_eq_some_iff.mp h.symm
    exact hf hsame.symm

theorem foldlM_view_congr (hview : ActsOnView apply view) {rs : List Record} {held held' : α}
    (h : view held = view held') :
    (rs.foldlM apply held).map view = (rs.foldlM apply held').map view := by
  induction rs generalizing held held' with
  | nil => exact congrArg some h
  | cons r rest ih =>
    rw [List.foldlM_cons, List.foldlM_cons]
    exact map_bind_view_congr ih (hview r h)

/-- Records that are accepted and change nothing of what is seen leave it as it is. -/
theorem foldlM_view_eq {rs : List Record}
    (hkeep : ∀ r ∈ rs, ∀ a, (apply a r).map view = some (view a)) (held : α) :
    (rs.foldlM apply held).map view = some (view held) := by
  induction rs generalizing held with
  | nil => rfl
  | cons r rest ih =>
    obtain ⟨hfirst, hrest⟩ := List.forall_mem_cons.mp hkeep
    obtain ⟨next, hnext, hview⟩ := Option.map_eq_some_iff.mp (hfirst held)
    rw [List.foldlM_cons, hnext, ← hview]
    exact ih hrest next

/-- Records that change nothing of what is seen can be left out. -/
theorem foldlM_view_filter (hview : ActsOnView apply view) {p : Record → Prop} [DecidablePred p]
    {rs : List Record}
    (hskip : ∀ r ∈ rs, ¬ p r → ∀ a, (apply a r).map view = some (view a)) (held : α) :
    (rs.foldlM apply held).map view = ((rs.filter p).foldlM apply held).map view := by
  induction rs generalizing held with
  | nil => rfl
  | cons r rest ih =>
    obtain ⟨hfirst, hrest⟩ := List.forall_mem_cons.mp hskip
    by_cases hr : p r
    · rw [List.filter_cons_of_pos (by simpa using hr), List.foldlM_cons, List.foldlM_cons]
      cases apply held r with
      | none => rfl
      | some next => exact ih hrest next
    · rw [List.filter_cons_of_neg (by simpa using hr), List.foldlM_cons, ← ih hrest held]
      have hnext : (apply held r).map view = (some held).map view := hfirst hr held
      exact map_bind_view_congr (foldlM_view_congr hview) hnext

/-- Bodies with the same records, up to records that change nothing of what is seen. -/
theorem mergeMessage_view_congr (hview : ActsOnView apply view) {p : Record → Prop}
    [DecidablePred p] (hskip : ∀ a r, ¬ p r → (apply a r).map view = some (view a)) {depth : Nat}
    {body body' : Bytes} {rs rs' : List Record} (hrs : readRecords depth [] body = some rs)
    (hrs' : readRecords depth [] body' = some rs') (hsame : rs'.filter p = rs.filter p)
    (held : α) : (mergeMessage apply depth held body').map view
      = (mergeMessage apply depth held body).map view := by
  have hall : ∀ rs : List Record, ∀ r ∈ rs, ¬ p r → ∀ a, (apply a r).map view = some (view a) :=
    fun rs r _ hr a => hskip a r hr
  rw [mergeMessage_of_readRecords hrs, mergeMessage_of_readRecords hrs',
    foldlM_view_filter hview (hall rs), foldlM_view_filter hview (hall rs'), hsame]

/-- One record in place of another that acts alike. -/
theorem mergeMessage_view_replace (hview : ActsOnView apply view) {r r' : Record}
    (hr : ∀ a, (apply a r').map view = (apply a r).map view) {depth : Nat} {body body' : Bytes}
    {front back : List Record} (hrs : readRecords depth [] body = some (front ++ r :: back))
    (hrs' : readRecords depth [] body' = some (front ++ r' :: back)) (held : α) :
    (mergeMessage apply depth held body').map view
      = (mergeMessage apply depth held body).map view := by
  rw [mergeMessage_of_readRecords hrs, mergeMessage_of_readRecords hrs', List.foldlM_append,
    List.foldlM_append]
  cases front.foldlM apply held with
  | none => rfl
  | some before =>
    show ((r' :: back).foldlM apply before).map view = ((r :: back).foldlM apply before).map view
    rw [List.foldlM_cons, List.foldlM_cons]
    exact map_bind_view_congr (foldlM_view_congr hview) (hr before)

theorem mergeMessage_view_held (hview : ActsOnView apply view) {depth : Nat} {held held' : α}
    (h : view held = view held') (body : Bytes) :
    (mergeMessage apply depth held body).map view
      = (mergeMessage apply depth held' body).map view := by
  rw [mergeMessage, mergeMessage]
  cases readRecords depth [] body with
  | none => rfl
  | some rs => exact foldlM_view_congr hview h

/-! The view of everything. -/

theorem actsOnView_id (apply : α → Record → Option α) : ActsOnView apply id :=
  fun r h => congrArg (fun a => (apply a r).map id) h

theorem mergeMessage_congr {p : Record → Prop} [DecidablePred p]
    (hskip : ∀ a r, ¬ p r → apply a r = some a) {depth : Nat} {body body' : Bytes}
    {rs rs' : List Record} (hrs : readRecords depth [] body = some rs)
    (hrs' : readRecords depth [] body' = some rs') (hsame : rs'.filter p = rs.filter p)
    (held : α) : mergeMessage apply depth held body' = mergeMessage apply depth held body := by
  have hview := mergeMessage_view_congr (actsOnView_id apply)
    (fun a r hr => congrArg (Option.map id) (hskip a r hr)) hrs hrs' hsame held
  rwa [Option.map_id, id, id] at hview

theorem mergeMessage_replace {r r' : Record} (hr : ∀ a, apply a r' = apply a r) {depth : Nat}
    {body body' : Bytes} {front back : List Record}
    (hrs : readRecords depth [] body = some (front ++ r :: back))
    (hrs' : readRecords depth [] body' = some (front ++ r' :: back)) (held : α) :
    mergeMessage apply depth held body' = mergeMessage apply depth held body := by
  have hview := mergeMessage_view_replace (actsOnView_id apply)
    (fun a => congrArg (Option.map id) (hr a)) hrs hrs' held
  rwa [Option.map_id, id, id] at hview

end CloudEvents
