import CloudEvents.Error

/-!
# Reports of a construction

A value is built from several fields, each of which may be ill-shaped, and then has to keep the
rules of the event model. The two sorts of failure behave differently. Issues add up: every field is
looked at, and the report lists the issues of all of them, in the order of the fields. Broken rules
do not: they end the whole construction, whatever was found before and however deep inside they
arise.

`Built` keeps the two apart, and `Built.apply` is the one place where reports meet.

## Main definitions

* `Built`, `Built.apply`, `Built.collect` — outcomes, and how those of several parts combine
* `Built.checked` — the rules, once the shape is right
* `Built.under` — the report of a part, seen from the whole
* `Built.toExcept` — the outcome as the result of a call

## Main results

* `Built.apply_eq_value_iff`, `Built.collect_eq_value_iff` — the whole is built exactly when all
  parts are
-/

namespace CloudEvents

/-- The outcome of building a value from untyped input. -/
inductive Built (α : Type) where
  | value (result : α)
  /-- Some parts have the wrong shape. -/
  | misshapen (issues : List Issue)
  /-- The shape is right where it was looked at, but rules are broken. -/
  | broken (violations : List Violation)
  deriving DecidableEq

namespace Built

variable {α β : Type}

/-- One issue of the value itself. -/
def issue (kind : IssueKind) : Built α := misshapen [⟨[], kind⟩]

def map (f : α → β) : Built α → Built β
  | value a => value (f a)
  | misshapen issues => misshapen issues
  | broken violations => broken violations

/-- Combines two parts: broken rules of either end the construction, those of the first part before
those of the second, and issues add up. -/
def apply : Built (α → β) → Built α → Built β
  | broken violations, _ => broken violations
  | misshapen _, broken violations => broken violations
  | misshapen first, misshapen second => misshapen (first ++ second)
  | misshapen first, value _ => misshapen first
  | value f, part => part.map f

/-- A part beside another one, of which only the report counts. -/
def alongside (part : Built α) (other : Built β) : Built α := (part.map fun a _ => a).apply other

/-- The parts of a sequence, in order. -/
def collect : List (Built α) → Built (List α)
  | [] => value []
  | part :: rest => (part.map List.cons).apply (collect rest)

/-- Applies rules to a value whose shape is right. -/
def checked (rules : α → Except (List Violation) β) : Built α → Built β
  | value a => match rules a with
    | .ok b => value b
    | .error violations => broken violations
  | misshapen issues => misshapen issues
  | broken violations => broken violations

/-- The report of a part, as the report of the whole that holds it under `step`. -/
def under (step : Step) : Built α → Built α
  | misshapen issues => misshapen (issues.map (·.under step))
  | b => b

/-- The outcome of a call that builds a value of `model`. -/
def toExcept (model : Model) : Built α → Except Error α
  | value a => .ok a
  | misshapen issues => .error (.shape model issues)
  | broken violations => .error (.invalid violations)

/-! ### When a value is built -/

theorem map_eq_value_iff {f : α → β} {part : Built α} {b : β} :
    part.map f = value b ↔ ∃ a, part = value a ∧ f a = b := by
  cases part <;> simp [map]

theorem apply_eq_value_iff {f : Built (α → β)} {part : Built α} {b : β} :
    f.apply part = value b ↔ ∃ g a, f = value g ∧ part = value a ∧ g a = b := by
  cases f <;> cases part <;> simp [apply, map]

theorem alongside_eq_value_iff {part : Built α} {other : Built β} {a : α} :
    part.alongside other = value a ↔ part = value a ∧ ∃ b, other = value b := by
  cases part <;> cases other <;> simp [alongside, apply, map]

theorem checked_eq_value_iff {rules : α → Except (List Violation) β} {part : Built α} {b : β} :
    part.checked rules = value b ↔ ∃ a, part = value a ∧ rules a = .ok b := by
  cases part with
  | value a => cases h : rules a <;> simp [checked, h]
  | _ => simp [checked]

theorem under_eq_value_iff {step : Step} {part : Built α} {a : α} :
    part.under step = value a ↔ part = value a := by
  cases part <;> simp [under]

theorem toExcept_eq_ok_iff {model : Model} {part : Built α} {a : α} :
    part.toExcept model = .ok a ↔ part = value a := by
  cases part <;> simp [toExcept]

theorem toExcept_checked_value (model : Model) {rules : α → Except (List Violation) β} {a : α} :
    ((value a).checked rules).toExcept model = (rules a).mapError .invalid := by
  rw [checked]
  cases rules a <;> rfl

theorem collect_eq_value_iff {parts : List (Built α)} {results : List α} :
    collect parts = value results ↔ parts = results.map value := by
  induction parts generalizing results with
  | nil => cases results <;> simp [collect]
  | cons part rest ih =>
    rw [collect, apply_eq_value_iff]
    constructor
    · rintro ⟨g, tail, hg, ht, rfl⟩
      obtain ⟨a, rfl, rfl⟩ := map_eq_value_iff.1 hg
      rw [ih.1 ht, List.map_cons]
    · intro h
      cases results with
      | nil => cases h
      | cons a tail =>
        obtain ⟨rfl, ht⟩ := List.cons.inj h
        exact ⟨List.cons a, tail, rfl, ih.2 ht, rfl⟩

end Built

end CloudEvents
