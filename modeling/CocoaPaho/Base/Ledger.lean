import Mathlib.Data.Multiset.AddSub

/-!
Ledgers. Things are acquired and released one after another, and what was acquired and not yet
released is outstanding; a thing may be acquired more than once. Whoever acquires first and releases
later leaves what it does not release, in whatever order it releases the rest.
-/

namespace CocoaPaho.Base

variable {α : Type}

inductive Use (α : Type) where
  | acquire (a : α)
  | release (a : α)
  deriving DecidableEq

variable [DecidableEq α]

def Use.apply (held : Multiset α) : Use α → Multiset α
  | acquire a => a ::ₘ held
  | release a => held.erase a

/-- What is outstanding after some uses. -/
def settle (held : Multiset α) (uses : List (Use α)) : Multiset α := uses.foldl Use.apply held

theorem settle_append (held : Multiset α) (uses uses' : List (Use α)) :
    settle held (uses ++ uses') = settle (settle held uses) uses' := List.foldl_append

theorem settle_acquires (held : Multiset α) (l : List α) :
    settle held (l.map Use.acquire) = held + l := by
  induction l generalizing held with
  | nil => exact (Multiset.add_zero held).symm
  | cons a l ih =>
      calc settle held ((a :: l).map Use.acquire)
          = (a ::ₘ held) + l := ih (a ::ₘ held)
        _ = held + (a :: l : List α) := by
          rw [Multiset.cons_add, ← Multiset.add_cons, Multiset.cons_coe]

theorem settle_releases (held : Multiset α) (l : List α) :
    settle held (l.map Use.release) = held - l := by
  induction l generalizing held with
  | nil => exact (Multiset.sub_zero held).symm
  | cons a l ih =>
      calc settle held ((a :: l).map Use.release)
          = held.erase a - l := ih (held.erase a)
        _ = held - (a :: l : List α) := by rw [← Multiset.cons_coe, Multiset.sub_cons]

/-- **What is left.** Of the things acquired in a first round those stay that a second one does not
release. -/
theorem settle_rounds {acquired released kept : List α} (h : acquired.Perm (released ++ kept))
    (held : Multiset α) :
    settle held (acquired.map Use.acquire ++ released.map Use.release) = held + kept := by
  have hcoe : (acquired : Multiset α) = kept + released := by
    rw [Multiset.coe_eq_coe.2 h, ← Multiset.coe_add, Multiset.add_comm]
  rw [settle_append, settle_acquires, settle_releases, hcoe, ← Multiset.add_assoc,
    Multiset.add_sub_cancel_right]

/-- Things that are distinct and all released in one round are released once each. -/
theorem count_releases {l : List α} (h : l.Nodup) {a : α} (ha : a ∈ l) :
    (l.map Use.release).count (Use.release a) = 1 := by
  have hinjective : Function.Injective (Use.release : α → Use α) := fun _ _ => Use.release.inj
  rw [List.count_map_of_injective l _ hinjective]
  exact List.count_eq_one_of_mem h ha

end CocoaPaho.Base
