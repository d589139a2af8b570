import CloudEvents.Program.Basic
import CloudEvents.Proofs.SoundValues

/-!
# Simulated runs

How a simulated run ends comes from how its steps end, one after the other (`outcome_bind`), and a
step that calls the codec ends as the call does and leaves the trace as it is (`outcome_step`). So a
run is looked at line by line, and only readings and printed lines change the trace.

## Main results

* `Program.result_encode` and its companions — the calls of the codec, as steps
* `Simulation.outcome_bind` — one step after another
* `Simulation.outcome_step`, `Simulation.outcome_wall`, `Simulation.outcome_stopwatch`,
  `Simulation.outcome_print` — the four things that a program can do
* `Simulation.outcome_mapM_step` — a step for each element of a list
-/

namespace CloudEvents

/-! ### Calls of the codec -/

namespace Program

theorem result_encode (c : Codec) (e : Event) :
    (encode c e).result = (c.encode e).mapError .invalid := by
  show (c.encodeLogged e).result.mapError _ = _
  rw [Codec.encodeLogged]
  cases c.encode e <;> rfl

theorem result_encodeBatch (c : Codec) (b : Batch) :
    (encodeBatch c b).result = (c.encodeBatch b).mapError .invalid := by
  show (c.encodeBatchLogged b).result.mapError _ = _
  rw [Codec.encodeBatchLogged]
  cases c.encodeBatch b <;> rfl

theorem result_decode (c : Codec) (bytes : Bytes) :
    (decode c bytes).result = (c.decode bytes).mapError .decode := by
  rw [← Codec.result_decodeLogged]
  rfl

theorem result_decodeBatch (c : Codec) (bytes : Bytes) :
    (decodeBatch c bytes).result = (c.decodeBatch bytes).mapError .decode := by
  rw [← Codec.result_decodeBatchLogged]
  rfl

end Program

/-! ### Simulations -/

instance : LawfulMonad Logged := LawfulMonad.mk' Logged
  (fun x => by
    show Logged.mk x.result (x.log ++ []) = x
    rw [List.append_nil])
  (fun _ _ => rfl)
  (fun x f g => by
    show Logged.mk _ _ = Logged.mk _ _
    rw [Logged.mk.injEq]
    exact ⟨rfl, List.append_assoc _ _ _⟩)

namespace Simulation

variable {α β : Type} {clocks : Clocks} {t t' : Trace}

theorem outcome_pure (a : α) (t : Trace) : (pure a : Simulation α).outcome t = (.ok a, t) := rfl

theorem outcome_bind (s : Simulation α) (f : α → Simulation β) (t : Trace) :
    (s >>= f).outcome t = match s.outcome t with
      | (.ok a, t') => (f a).outcome t'
      | (.error e, t') => (.error e, t') := by
  show (ExceptT.bindCont f (s.run.run t).result.1 (s.run.run t).result.2).result
    = match (s.run.run t).result with
      | (.ok a, t') => _
      | (.error e, t') => _
  rcases (s.run.run t).result with ⟨_ | _, _⟩ <;> rfl

theorem outcome_bind_of_ok {s : Simulation α} {f : α → Simulation β} {a : α}
    (h : s.outcome t = (.ok a, t')) : (s >>= f).outcome t = (f a).outcome t' := by
  rw [outcome_bind, h]

theorem outcome_bind_of_error {s : Simulation α} {f : α → Simulation β} {e : Error}
    (h : s.outcome t = (.error e, t')) : (s >>= f).outcome t = (.error e, t') := by
  rw [outcome_bind, h]

/-! ### What a program can do -/

theorem outcome_step (p : Program α) (t : Trace) :
    (clocks.surroundings.step p).outcome t = (p.result, t) := rfl

theorem outcome_wall (t : Trace) :
    clocks.surroundings.wall.outcome t
      = (.ok (clocks.wall t.wallReadings), { t with wallReadings := t.wallReadings + 1 }) := rfl

theorem outcome_stopwatch (t : Trace) :
    clocks.surroundings.stopwatch.outcome t
      = (.ok (clocks.stopwatch t.stopwatchReadings),
          { t with stopwatchReadings := t.stopwatchReadings + 1 }) := rfl

theorem outcome_print (line : String) (t : Trace) :
    (clocks.surroundings.print line).outcome t
      = (.ok (), { t with printed := t.printed ++ [line] }) := rfl

/-! ### Steps in a row -/

theorem outcome_bind_step_of_ok {p : Program α} {f : α → Simulation β} {a : α}
    (h : p.result = .ok a) (t : Trace) :
    (clocks.surroundings.step p >>= f).outcome t = (f a).outcome t :=
  outcome_bind_of_ok ((outcome_step p t).trans (by rw [h]))

theorem outcome_bind_step_of_error {p : Program α} {f : α → Simulation β} {e : Error}
    (h : p.result = .error e) (t : Trace) :
    (clocks.surroundings.step p >>= f).outcome t = (.error e, t) :=
  outcome_bind_of_error ((outcome_step p t).trans (by rw [h]))

/-! The same of steps that are not logged. -/

theorem outcome_bind_lift_of_ok {x : Except Error α} {f : α → Simulation β} {a : α}
    (h : x = .ok a) (t : Trace) :
    (clocks.surroundings.step (x : Program α) >>= f).outcome t = (f a).outcome t :=
  outcome_bind_step_of_ok (show Program.result (liftM x) = .ok a from h) t

theorem outcome_bind_lift_of_error {x : Except Error α} {f : α → Simulation β} {e : Error}
    (h : x = .error e) (t : Trace) :
    (clocks.surroundings.step (x : Program α) >>= f).outcome t = (.error e, t) :=
  outcome_bind_step_of_error (show Program.result (liftM x) = .error e from h) t

/-- A step for each element ends as the steps do, and leaves the trace as it is. -/
theorem outcome_mapM_step (f : α → Program β) (l : List α) (t : Trace) :
    (l.mapM fun a => clocks.surroundings.step (f a)).outcome t
      = (l.mapM fun a => (f a).result, t) := by
  induction l with
  | nil => rfl
  | cons a rest ih =>
    rw [List.mapM_cons, List.mapM_cons]
    cases hstep : (f a).result with
    | error e => exact outcome_bind_step_of_error hstep t
    | ok b =>
      rw [outcome_bind_step_of_ok hstep, outcome_bind, ih]
      cases rest.mapM fun a => (f a).result <;> rfl

end Simulation

end CloudEvents
