import Mathlib.Data.Option.Basic
import CocoaPaho.Base.Runs

/-!
Two machines side by side, over arbitrary types of states and inputs. Machines whose steps keep a
relation between their states, and are enabled together, keep it over whole runs. A machine with more
to its states and steps than another, whose steps do to the smaller states what the other's do, or
nothing, has the other's runs.
-/

namespace CocoaPaho.Base

variable {σ τ ε δ : Type} {step : σ → ε → Option σ} {step' : τ → δ → Option τ}

/-- Runs on inputs and on their translations stay related. -/
theorem runFrom_rel {R : σ → τ → Prop} {translate : ε → δ}
    (hstep : ∀ s t e, R s t → Option.Rel R (step s e) (step' t (translate e))) (es : List ε) :
    ∀ {s : σ} {t : τ}, R s t →
      Option.Rel R (runFrom step s es) (runFrom step' t (es.map translate)) := by
  induction es with
  | nil => exact fun hst => .some hst
  | cons e es ih =>
      intro s t hst
      rw [List.map_cons, runFrom_cons, runFrom_cons]
      have hfirst := hstep s t e hst
      generalize step s e = next at hfirst ⊢
      generalize step' t (translate e) = next' at hfirst ⊢
      cases hfirst with
      | some hrel => exact ih hrel
      | none => exact .none

/-- Steps of the larger machine with a counterpart do what the counterpart does; the others are always
enabled and leave the smaller state alone. -/
theorem runFrom_project {project : σ → τ} {visible : ε → Option δ}
    (hvisible : ∀ s e d, visible e = some d →
      (step s e).map project = step' (project s) d)
    (hhidden : ∀ s e, visible e = none → ∃ s', step s e = some s' ∧ project s' = project s)
    (es : List ε) :
    ∀ s, (runFrom step s es).map project = runFrom step' (project s) (es.filterMap visible) := by
  induction es with
  | nil => exact fun _ => rfl
  | cons e es ih =>
      intro s
      rw [runFrom_cons]
      cases he : visible e with
      | none =>
          obtain ⟨s', hs', hproject⟩ := hhidden s e he
          rw [List.filterMap_cons_none he, hs', Option.bind_some, ih, hproject]
      | some d =>
          rw [List.filterMap_cons_some he, runFrom_cons, ← hvisible s e d he, Option.map_bind,
            Option.bind_map]
          congr 1
          funext s'
          exact ih s'

end CocoaPaho.Base
