import Mathlib.Data.List.Chain
import CocoaPaho.Base.Runs

/-!
A queue that offers its first element until it is accepted, over an arbitrary type of elements. In
every run the elements are accepted in the order they were pushed, each once, and an element that is
refused is the next one offered.
-/

namespace CocoaPaho.Base

/-- The elements that wait, those accepted, and all offers made, each with its outcome. -/
structure RetryQueue (α : Type) where
  pending : List α := []
  accepted : List α := []
  offers : List (α × Bool) := []

inductive RetryInput (α : Type) where
  | push (a : α)
  | offer (accept : Bool)

namespace RetryQueue

variable {α : Type}

def step (q : RetryQueue α) : RetryInput α → Option (RetryQueue α)
  | .push a => some { q with pending := q.pending ++ [a] }
  | .offer accept =>
    match q.pending with
    | [] => none
    | a :: rest =>
      some
        { pending := if accept then rest else q.pending
          accepted := if accept then q.accepted ++ [a] else q.accepted
          offers := q.offers ++ [(a, accept)] }

/-- The elements pushed by a list of inputs. -/
def pushed (inputs : List (RetryInput α)) : List α :=
  inputs.filterMap fun
    | .push a => some a
    | .offer _ => none

/-- The offers of a queue are in order: those accepted give the accepted elements, and after a refusal
the same element is offered, or waits to be. -/
structure InOrder (q : RetryQueue α) : Prop where
  accepted : (q.offers.filter Prod.snd).map Prod.fst = q.accepted
  retried : q.offers.IsChain fun p p' => p.2 = false → p'.1 = p.1
  waiting : ∀ p ∈ q.offers.getLast?, p.2 = false → q.pending.head? = some p.1

/-- What a step does: an element is pushed, or the first one is offered. -/
theorem step_cases {q q' : RetryQueue α} {input : RetryInput α} (h : q.step input = some q') :
    (∃ a, input = .push a ∧ q' = { q with pending := q.pending ++ [a] }) ∨
      ∃ accept a rest, input = .offer accept ∧ q.pending = a :: rest ∧
        q' = { pending := if accept then rest else a :: rest
               accepted := if accept then q.accepted ++ [a] else q.accepted
               offers := q.offers ++ [(a, accept)] } := by
  cases input with
  | push a => exact Or.inl ⟨a, rfl, (Option.some.inj h).symm⟩
  | offer accept =>
      rw [step] at h
      split at h
      · cases h
      · next a rest hpending =>
          rw [hpending] at h
          exact Or.inr ⟨accept, a, rest, rfl, hpending, (Option.some.inj h).symm⟩

theorem step_inOrder {q q' : RetryQueue α} {input : RetryInput α} (hq : q.InOrder)
    (h : q.step input = some q') : q'.InOrder := by
  rcases step_cases h with ⟨a, rfl, rfl⟩ | ⟨accept, a, rest, rfl, hpending, rfl⟩
  · refine ⟨hq.accepted, hq.retried, fun p hp hrefused => ?_⟩
    have hhead := hq.waiting p hp hrefused
    dsimp only
    rw [List.head?_append, hhead, Option.some_or]
  · constructor
    · cases accept <;> simp [hq.accepted]
    · refine List.isChain_append.2 ⟨hq.retried, List.isChain_singleton _, ?_⟩
      intro p hp p' hp' hrefused
      have hhead := hq.waiting p hp hrefused
      rw [hpending] at hhead
      cases hp'
      exact Option.some.inj hhead
    · intro p hp hrefused
      rw [List.getLast?_concat] at hp
      cases hp
      dsimp only at hrefused ⊢
      rw [hrefused]
      rfl

theorem run_inOrder {q : RetryQueue α} {inputs : List (RetryInput α)}
    (hrun : runFrom step {} inputs = some q) : q.InOrder := by
  refine runFrom_invariant (fun _ _ _ hq h => step_inOrder hq h) ?_ hrun
  exact ⟨rfl, List.isChain_nil, fun p hp => by cases hp⟩

theorem step_accepted_pending {q q' : RetryQueue α} {input : RetryInput α}
    (h : q.step input = some q') :
    q'.accepted ++ q'.pending = q.accepted ++ q.pending ++ pushed [input] := by
  rcases step_cases h with ⟨a, rfl, rfl⟩ | ⟨accept, a, rest, rfl, hpending, rfl⟩
  · simp [pushed]
  · cases accept <;> simp [pushed, hpending]

/-- What was accepted and what waits is what was pushed, in that order. -/
theorem run_accepted_pending {q : RetryQueue α} {inputs : List (RetryInput α)}
    (hrun : runFrom step {} inputs = some q) : q.accepted ++ q.pending = pushed inputs := by
  have hstart : ({} : RetryQueue α).accepted ++ ({} : RetryQueue α).pending = pushed [] := rfl
  refine runFrom_history (I := fun past q => q.accepted ++ q.pending = pushed past)
    (fun past q input q' hq h => ?_) hstart hrun
  rw [step_accepted_pending h, hq, pushed, pushed, pushed, List.filterMap_append]

end RetryQueue

end CocoaPaho.Base
