import Mathlib.Data.List.Basic

/-!
Strong references. An object is held while some holder has a reference to it, and is gone with the
last one. An object may own one reference itself, which it drops when it goes; what it owns that way
owns nothing further.
-/

namespace CocoaPaho.Base

variable {H O : Type} [DecidableEq H] [DecidableEq O]

def Held (refs : List (H × O)) (o : O) : Prop := o ∈ refs.map Prod.snd

instance (refs : List (H × O)) (o : O) : Decidable (Held refs o) :=
  inferInstanceAs (Decidable (o ∈ refs.map Prod.snd))

/-- One reference less: the references left, and the object if that was the last one. -/
def dropOne (refs : List (H × O)) (r : H × O) : List (H × O) × List O :=
  (refs.erase r, if Held (refs.erase r) r.2 then [] else [r.2])

/-- A reference is dropped, and with an object that goes also the reference it owns: the references
left, and the objects gone, in order. -/
def drop (owned : O → Option (H × O)) (refs : List (H × O)) (r : H × O) : List (H × O) × List O :=
  let first := dropOne refs r
  match first.2, owned r.2 with
  | o :: _, some r' => ((dropOne first.1 r').1, o :: (dropOne first.1 r').2)
  | gone, _ => (first.1, gone)

variable {owned : O → Option (H × O)} {refs : List (H × O)} {r r' : H × O} {o : O}

omit [DecidableEq H] [DecidableEq O] in
theorem held_of_mem (h : r ∈ refs) : Held refs r.2 := List.mem_map_of_mem h

theorem Held.of_erase (h : Held (refs.erase r) o) : Held refs o := by
  obtain ⟨r', hr', rfl⟩ := List.mem_map.1 h
  exact held_of_mem (List.mem_of_mem_erase hr')

theorem Held.erase_of_ne (h : Held refs o) (hne : o ≠ r.2) : Held (refs.erase r) o := by
  obtain ⟨r', hr', rfl⟩ := List.mem_map.1 h
  exact held_of_mem ((List.mem_erase_of_ne fun heq => hne (congrArg Prod.snd heq)).2 hr')

theorem mem_dropOne (o : O) : o ∈ (dropOne refs r).2 ↔ o = r.2 ∧ ¬ Held (refs.erase r) r.2 := by
  rw [dropOne]
  dsimp only
  split_ifs with h <;> simp [h]

/-- Dropping a reference: it is left out, and either its object stays held, or the object goes, and
the reference it owns is left out too. -/
theorem drop_cases (owned : O → Option (H × O)) (refs : List (H × O)) (r : H × O) :
    (Held (refs.erase r) r.2 ∧ drop owned refs r = (refs.erase r, [])) ∨
      (¬ Held (refs.erase r) r.2 ∧ owned r.2 = none ∧ drop owned refs r = (refs.erase r, [r.2])) ∨
      ∃ r', ¬ Held (refs.erase r) r.2 ∧ owned r.2 = some r' ∧
        drop owned refs r = ((refs.erase r).erase r', r.2 :: (dropOne (refs.erase r) r').2) := by
  by_cases hheld : Held (refs.erase r) r.2
  · exact Or.inl ⟨hheld, by simp [drop, dropOne, hheld]⟩
  · cases howned : owned r.2 with
    | none => exact Or.inr (Or.inl ⟨hheld, rfl, by simp [drop, dropOne, hheld, howned]⟩)
    | some r' => exact Or.inr (Or.inr ⟨r', hheld, rfl, by simp [drop, dropOne, hheld, howned]⟩)

theorem Held.of_drop (h : Held (drop owned refs r).1 o) : Held refs o := by
  rcases drop_cases owned refs r with ⟨-, heq⟩ | ⟨-, -, heq⟩ | ⟨r', -, -, heq⟩
  · rw [heq] at h
    exact h.of_erase
  · rw [heq] at h
    exact h.of_erase
  · rw [heq] at h
    exact h.of_erase.of_erase

theorem not_held_of_gone (h : o ∈ (drop owned refs r).2) : ¬ Held (drop owned refs r).1 o := by
  rcases drop_cases owned refs r with ⟨-, heq⟩ | ⟨hheld, -, heq⟩ | ⟨r', hheld, -, heq⟩
  · rw [heq] at h
    cases h
  · rw [heq] at h ⊢
    rwa [List.mem_singleton.1 h]
  · rw [heq] at h ⊢
    rcases List.mem_cons.1 h with rfl | h
    · exact fun hleft => hheld hleft.of_erase
    · obtain ⟨rfl, hlast⟩ := (mem_dropOne o).1 h
      exact hlast

/-- What was held is still held or gone. -/
theorem Held.drop_or_gone (h : Held refs o) :
    Held (drop owned refs r).1 o ∨ o ∈ (drop owned refs r).2 := by
  rcases drop_cases owned refs r with ⟨hheld, heq⟩ | ⟨hheld, -, heq⟩ | ⟨r', hheld, -, heq⟩
  · rw [heq]
    by_cases ho : o = r.2
    · exact Or.inl (ho ▸ hheld)
    · exact Or.inl (h.erase_of_ne ho)
  · rw [heq]
    by_cases ho : o = r.2
    · exact Or.inr (List.mem_singleton.2 ho)
    · exact Or.inl (h.erase_of_ne ho)
  · rw [heq]
    by_cases ho : o = r.2
    · exact Or.inr (List.mem_cons.2 (Or.inl ho))
    · by_cases ho' : o = r'.2
      · by_cases hlast : Held ((refs.erase r).erase r') r'.2
        · exact Or.inl (ho' ▸ hlast)
        · exact Or.inr (List.mem_cons_of_mem _ ((mem_dropOne o).2 ⟨ho', hlast⟩))
      · exact Or.inl ((h.erase_of_ne ho).erase_of_ne ho')

/-- Another reference stays, unless it is owned by an object that goes. -/
theorem mem_drop_of_ne (h : r' ∈ refs) (hne : r' ≠ r)
    (howned : owned r.2 = some r' → Held (drop owned refs r).1 r.2) :
    r' ∈ (drop owned refs r).1 := by
  have hleft : r' ∈ refs.erase r := (List.mem_erase_of_ne hne).2 h
  rcases drop_cases owned refs r with ⟨-, heq⟩ | ⟨-, -, heq⟩ | ⟨r'', hheld, hr'', heq⟩
  · rwa [heq]
  · rwa [heq]
  · rw [heq] at howned ⊢
    by_cases hr : r' = r''
    · rw [← hr] at hr''
      exact absurd (howned hr'').of_erase hheld
    · exact (List.mem_erase_of_ne hr).2 hleft

/-- How often a reference is there after a drop. -/
theorem count_drop (owned : O → Option (H × O)) (refs : List (H × O)) (r x : H × O) :
    (drop owned refs r).1.count x = refs.count x - (if r = x then 1 else 0) -
      if ¬ Held (refs.erase r) r.2 ∧ owned r.2 = some x then 1 else 0 := by
  rcases drop_cases owned refs r with ⟨hheld, heq⟩ | ⟨-, hnone, heq⟩ | ⟨r', hheld, howned, heq⟩
  · simp [heq, hheld, List.count_erase]
  · simp [heq, hnone, List.count_erase]
  · simp [heq, hheld, howned, List.count_erase]

/-- The objects gone: that of the reference dropped, and that of the reference it owned. -/
theorem mem_drop_gone (h : o ∈ (drop owned refs r).2) :
    ¬ Held (refs.erase r) r.2 ∧ (o = r.2 ∨ ∃ r', owned r.2 = some r' ∧ o = r'.2) := by
  rcases drop_cases owned refs r with ⟨-, heq⟩ | ⟨hheld, -, heq⟩ | ⟨r', hheld, howned, heq⟩
  · rw [heq] at h
    cases h
  · rw [heq] at h
    exact ⟨hheld, Or.inl (List.mem_singleton.1 h)⟩
  · rw [heq] at h
    refine ⟨hheld, (List.mem_cons.1 h).imp_right fun hmem => ?_⟩
    exact ⟨r', howned, ((mem_dropOne o).1 hmem).1⟩

/-- The object of a reference dropped goes with it when it is held no more. -/
theorem mem_drop_gone_of_last (hlast : ¬ Held (refs.erase r) r.2) : r.2 ∈ (drop owned refs r).2 := by
  rcases drop_cases owned refs r with ⟨hheld, -⟩ | ⟨-, -, heq⟩ | ⟨r', -, -, heq⟩
  · exact absurd hheld hlast
  · simp [heq]
  · simp [heq]

end CocoaPaho.Base
