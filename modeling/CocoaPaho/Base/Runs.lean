import Mathlib.Data.List.Basic

/-!
Runs of a machine given by a partial step function, over arbitrary types of states and inputs. An
input that is not enabled ends the run without a result. The rules used below: an invariant kept by
every step, perhaps with the inputs so far, holds after every run; an invariant kept by the steps that
meet a condition holds after every run all of whose steps meet it; and a property that every step
keeps exactly when it meets a condition holds after a run exactly when all its steps do.
-/

namespace CocoaPaho.Base

variable {σ ε : Type} (step : σ → ε → Option σ)

/-- The state after a list of inputs, if every one of them is enabled. -/
def runFrom : σ → List ε → Option σ
  | s, [] => some s
  | s, e :: es => (step s e).bind fun s' => runFrom s' es

/-- Every step of the run from `s` meets the condition in the state it starts from. -/
def AllSteps (good : σ → ε → Prop) : σ → List ε → Prop
  | _, [] => True
  | s, e :: es => good s e ∧ ∀ s', step s e = some s' → AllSteps good s' es

@[simp] theorem runFrom_nil (s : σ) : runFrom step s [] = some s := rfl

theorem runFrom_cons (s : σ) (e : ε) (es : List ε) :
    runFrom step s (e :: es) = (step s e).bind fun s' => runFrom step s' es := rfl

theorem runFrom_cons_eq_some {s s'' : σ} {e : ε} {es : List ε} :
    runFrom step s (e :: es) = some s'' ↔
      ∃ s', step s e = some s' ∧ runFrom step s' es = some s'' := by
  rw [runFrom_cons, Option.bind_eq_some_iff]

variable {step}

/-- An invariant kept by the steps that meet a condition survives a run of such steps. -/
theorem runFrom_invariant_of_steps {I : σ → Prop} {good : σ → ε → Prop}
    (hstep : ∀ s e s', I s → good s e → step s e = some s' → I s') {es : List ε} :
    ∀ {s s' : σ}, I s → AllSteps step good s es → runFrom step s es = some s' → I s' := by
  induction es with
  | nil =>
      intro s s' hs _ hrun
      cases hrun
      exact hs
  | cons e es ih =>
      intro s s'' hs hgood hrun
      obtain ⟨s', he, hes⟩ := (runFrom_cons_eq_some step).1 hrun
      exact ih (hstep s e s' hs hgood.1 he) (hgood.2 s' he) hes

theorem allSteps_of_forall {good : σ → ε → Prop} (hgood : ∀ s e, good s e) (es : List ε) :
    ∀ s, AllSteps step good s es := by
  induction es with
  | nil => exact fun _ => trivial
  | cons e es ih => exact fun s => ⟨hgood s e, fun s' _ => ih s'⟩

/-- A condition on the inputs alone, along a run that does not get stuck. -/
theorem allSteps_input_iff {good : ε → Prop} {es : List ε} :
    ∀ {s s' : σ}, runFrom step s es = some s' →
      (AllSteps step (fun _ e => good e) s es ↔ ∀ e ∈ es, good e) := by
  induction es with
  | nil => exact fun _ => iff_of_true trivial (by simp)
  | cons e es ih =>
      intro s s'' hrun
      obtain ⟨s', he, hes⟩ := (runFrom_cons_eq_some step).1 hrun
      rw [List.forall_mem_cons, ← ih hes]
      refine and_congr_right fun _ => ⟨fun h => h s' he, fun h t ht => ?_⟩
      rw [he] at ht
      cases ht
      exact h

/-- An invariant kept by every step survives every run. -/
theorem runFrom_invariant {I : σ → Prop} (hstep : ∀ s e s', I s → step s e = some s' → I s')
    {s s' : σ} {es : List ε} (hs : I s) (hrun : runFrom step s es = some s') : I s' :=
  runFrom_invariant_of_steps (fun s e s' h (_ : True) => hstep s e s' h) hs
    (allSteps_of_forall (fun _ _ => trivial) es s) hrun

/-- An invariant of the state and the inputs so far, kept by every step. -/
theorem runFrom_history {I : List ε → σ → Prop}
    (hstep : ∀ past s e s', I past s → step s e = some s' → I (past ++ [e]) s') {es : List ε} :
    ∀ {past : List ε} {s s' : σ}, I past s → runFrom step s es = some s' → I (past ++ es) s' := by
  induction es with
  | nil =>
      intro past s s' hs hrun
      cases hrun
      rwa [List.append_nil]
  | cons e es ih =>
      intro past s s'' hs hrun
      obtain ⟨s', he, hes⟩ := (runFrom_cons_eq_some step).1 hrun
      rw [List.append_cons]
      exact ih (hstep past s e s' hs he) hes

/-- **Exactness.** If every step keeps `P` exactly when it meets the condition, then `P` holds after
a run exactly when it holds before and every step of the run meets the condition. -/
theorem runFrom_iff_allSteps {I P : σ → Prop} {good : σ → ε → Prop}
    (hinv : ∀ s e s', I s → step s e = some s' → I s')
    (hstep : ∀ s e s', I s → step s e = some s' → (P s' ↔ P s ∧ good s e)) {es : List ε} :
    ∀ {s s' : σ}, I s → runFrom step s es = some s' →
      (P s' ↔ P s ∧ AllSteps step good s es) := by
  induction es with
  | nil =>
      intro s s' _ hrun
      cases hrun
      exact ⟨fun h => ⟨h, trivial⟩, And.left⟩
  | cons e es ih =>
      intro s s'' hs hrun
      obtain ⟨s', he, hes⟩ := (runFrom_cons_eq_some step).1 hrun
      have hsteps : AllSteps step good s (e :: es) ↔ good s e ∧ AllSteps step good s' es := by
        refine and_congr_right fun _ => ⟨fun h => h s' he, fun h t ht => ?_⟩
        rw [he] at ht
        cases ht
        exact h
      rw [ih (hinv s e s' hs he) hes, hstep s e s' hs he, hsteps, and_assoc]

end CocoaPaho.Base
