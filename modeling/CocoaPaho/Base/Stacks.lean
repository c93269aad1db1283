import Mathlib.Data.List.Perm.Basic

/-!
Stacks of several threads in one list: the entries of a thread stand in it youngest first, between
those of the others.
-/

namespace CocoaPaho.Base

variable {ι α : Type} [DecidableEq ι]

/-- The youngest entry of a thread. -/
def top (i : ι) (entries : List (ι × α)) : Option α :=
  (entries.find? fun entry => entry.1 = i).map Prod.snd

/-- The stacks without the youngest entry of a thread. -/
def pop (i : ι) (entries : List (ι × α)) : List (ι × α) :=
  entries.eraseP fun entry => entry.1 = i

@[simp] theorem top_cons_self (i : ι) (a : α) (entries : List (ι × α)) :
    top i ((i, a) :: entries) = some a := by
  simp [top]

@[simp] theorem pop_cons_self (i : ι) (a : α) (entries : List (ι × α)) :
    pop i ((i, a) :: entries) = entries := by
  simp [pop]

/-- A thread's youngest entry and all the others. -/
theorem perm_of_top {i : ι} {a : α} {entries : List (ι × α)} (h : top i entries = some a) :
    ((i, a) :: pop i entries).Perm entries := by
  induction entries with
  | nil => cases h
  | cons entry entries ih =>
      obtain ⟨j, b⟩ := entry
      by_cases hj : j = i
      · subst hj
        rw [top_cons_self, Option.some.injEq] at h
        rw [h, pop_cons_self]
      · have htop : top i ((j, b) :: entries) = top i entries := by simp [top, hj]
        have hpop : pop i ((j, b) :: entries) = (j, b) :: pop i entries := by simp [pop, hj]
        rw [htop] at h
        rw [hpop]
        exact (List.Perm.swap _ _ _).trans ((ih h).cons _)

/-- What is counted of the entries, with the youngest one of a thread apart. -/
theorem countP_of_top {i : ι} {a : α} {entries : List (ι × α)} (p : ι × α → Bool)
    (h : top i entries = some a) :
    entries.countP p = (pop i entries).countP p + if p (i, a) then 1 else 0 := by
  rw [← (perm_of_top h).countP_eq p, List.countP_cons]

end CocoaPaho.Base
