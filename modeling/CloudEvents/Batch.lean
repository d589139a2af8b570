import CloudEvents.Event

/-!
# Batches

A batch is an ordered sequence of independent events. The events were checked when they were built,
and putting them together asks for nothing more.
-/

namespace CloudEvents

/-- The element at an index of a sequence; a negative index counts from the end. -/
def elementAt? {α : Type} (elements : List α) (index : Int) : Option α :=
  let position := if index < 0 then index + elements.length else index
  if position < 0 then none else elements[position.toNat]?

/-- Events in order. -/
structure Batch (τ : Type := String) where
  events : List (Event τ) := []
  deriving DecidableEq

namespace Batch

def length (b : Batch) : Nat := b.events.length

/-- The event at an index. -/
def get (b : Batch) (index : Int) : Except Error Event :=
  match elementAt? b.events index with
  | some event => .ok event
  | none => .error (.misuse .indexOutOfRange)

/-- Equality of batches: as many events, and the same ones place by place. -/
structure Same (a b : Batch) : Prop where
  length_eq : a.length = b.length
  event_same : ∀ pair ∈ a.events.zip b.events, pair.1.Same pair.2

/-- Decides `Same`. -/
def same (a b : Batch) : Bool :=
  a.length = b.length && (a.events.zip b.events).all fun pair => pair.1.same pair.2

theorem same_iff {a b : Batch} : a.same b = true ↔ a.Same b := by
  simp only [same, Bool.and_eq_true, decide_eq_true_eq, List.all_eq_true, Event.same_iff]
  exact ⟨fun h => ⟨h.1, h.2⟩, fun h => ⟨h.length_eq, h.event_same⟩⟩

end Batch

end CloudEvents
