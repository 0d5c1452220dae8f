import Conform.Proofs.Validation.Place
/-!
# Sessions

A validator carries nothing from one step of a session to the next: every step ends with an empty
path, and gives and calls what it gives and calls by itself on a fresh validator, whether the
steps before it passed, reported or failed.
-/

set_option autoImplicit false

namespace Conform

namespace SessionStep

/-- The report of a step by itself, on a validator that has done nothing before. -/
def alone (s : Setting) (step : SessionStep) : StepReport :=
  let (result, t) := step.run s Trace.start
  ⟨result, t.calls, t.path⟩

theorem run_samePlace (s : Setting) (step : SessionStep) (t : Trace) :
    (step.run s t).2.SamePlace t := by
  cases step with
  | validate schema value => exact s.validate_samePlace schema value t
  | property name schema value =>
    exact Trace.samePlace_pop (s.validate_samePlace schema value (t.push s.owner.lane name))
  | mismatch schema value => exact .refl t

theorem alone_pathAfter (s : Setting) (step : SessionStep) : (step.alone s).pathAfter = [] :=
  (step.run_samePlace s Trace.start).path

end SessionStep

theorem runSession_eq_map_alone (s : Setting) (steps : List SessionStep) :
    runSession s [] steps = steps.map (SessionStep.alone s) := by
  induction steps with
  | nil => rfl
  | cons step steps ih =>
    have hpath : (step.run s Trace.start).2.path = [] := step.alone_pathAfter s
    show step.alone s :: runSession s (step.run s Trace.start).2.path steps = _
    rw [hpath, ih, List.map_cons]

/-- A session is its steps, each by itself: every step reports what it reports on a fresh
validator and leaves the path empty, and whatever matches inside a step, at whatever place, ends
at that place. -/
theorem session_steps_independent (s : Setting) (steps : List SessionStep) :
    runSession s [] steps = steps.map (SessionStep.alone s) ∧
      (∀ report ∈ runSession s [] steps, report.pathAfter = []) ∧
      ∀ (depth : Nat) (w : Validator) (known node value : Value) (t : Trace) (lane : Lane),
        (matchWithin s depth w known node value t).2.pathIn lane = t.pathIn lane := by
  refine ⟨runSession_eq_map_alone s steps, fun report hreport => ?_, ?_⟩
  · rw [runSession_eq_map_alone] at hreport
    obtain ⟨step, -, rfl⟩ := List.mem_map.mp hreport
    exact step.alone_pathAfter s
  · intro depth w known node value t lane
    exact (matchWithin_samePlace s depth w known node value t).pathIn lane

end Conform
