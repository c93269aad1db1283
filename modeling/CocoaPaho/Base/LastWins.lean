import Mathlib.Data.List.AList
import Mathlib.Data.List.Induction

/-!
Overwriting. A dictionary filled from a list of entries, one after another, holds for each key the
value of the last entry with that key.
-/

namespace CocoaPaho.Base

variable {α β : Type} [DecidableEq α]

/-- The value of the last entry with a given key. -/
def lastValue (k : α) (es : List (Σ _ : α, β)) : Option β :=
  (es.filter fun e => e.1 = k).getLast?.map Sigma.snd

@[simp] theorem lastValue_nil (k : α) : lastValue k ([] : List (Σ _ : α, β)) = none := rfl

theorem lastValue_append_singleton (k : α) (es : List (Σ _ : α, β)) (e : Σ _ : α, β) :
    lastValue k (es ++ [e]) = if e.1 = k then some e.2 else lastValue k es := by
  unfold lastValue
  rw [List.filter_append]
  by_cases h : e.1 = k <;> simp [h]

theorem lastValue_eq_none_iff {k : α} {es : List (Σ _ : α, β)} :
    lastValue k es = none ↔ ∀ e ∈ es, e.1 ≠ k := by
  simp [lastValue]

theorem mem_of_lastValue_eq_some {k : α} {v : β} {es : List (Σ _ : α, β)}
    (h : lastValue k es = some v) : ⟨k, v⟩ ∈ es := by
  rw [lastValue, Option.map_eq_some_iff] at h
  obtain ⟨⟨k', v'⟩, hlast, rfl⟩ := h
  have hmem := List.mem_of_getLast? hlast
  rw [List.mem_filter, decide_eq_true_eq] at hmem
  obtain ⟨hmem, rfl⟩ := hmem
  exact hmem

/-- With distinct keys the last entry of a key is its only one. -/
theorem lastValue_eq_some_iff {k : α} {v : β} {es : List (Σ _ : α, β)} (hes : es.NodupKeys) :
    lastValue k es = some v ↔ ⟨k, v⟩ ∈ es := by
  refine ⟨mem_of_lastValue_eq_some, fun hmem => ?_⟩
  cases hlast : lastValue k es with
  | none => exact absurd rfl (lastValue_eq_none_iff.1 hlast _ hmem)
  | some v' =>
      have heq := hes.eq_of_mk_mem (mem_of_lastValue_eq_some hlast) hmem
      rw [heq]

theorem lastValue_entries (k : α) (d : AList fun _ : α => β) :
    lastValue k d.entries = d.lookup k := by
  apply Option.ext
  intro v
  rw [lastValue_eq_some_iff d.nodupKeys]
  exact AList.mem_lookup_iff.symm

/-- With distinct keys the order of the entries does not matter. -/
theorem lastValue_perm (k : α) {es es' : List (Σ _ : α, β)} (hes : es.NodupKeys)
    (h : es.Perm es') : lastValue k es = lastValue k es' := by
  apply Option.ext
  intro v
  rw [lastValue_eq_some_iff hes, lastValue_eq_some_iff ((List.perm_nodupKeys h).1 hes)]
  exact h.mem_iff

/-- **Last wins.** Inserting a list of entries in order. -/
theorem lookup_foldl_insert (k : α) (es : List (Σ _ : α, β)) (d : AList fun _ : α => β) :
    (es.foldl (fun d e => d.insert e.1 e.2) d).lookup k = (lastValue k es).or (d.lookup k) := by
  induction es using List.reverseRecOn with
  | nil => rfl
  | append_singleton es e ih =>
      rw [List.foldl_append, List.foldl_cons, List.foldl_nil, lastValue_append_singleton]
      by_cases h : e.1 = k
      · subst h
        simp [AList.lookup_insert]
      · rw [if_neg h, AList.lookup_insert_ne (Ne.symm h), ih]

/-- An element of a list that meets a condition, with none behind it that does. -/
def IsLast {γ : Type} (P : γ → Prop) (l : List γ) (a : γ) : Prop :=
  ∃ before after, l = before ++ a :: after ∧ P a ∧ ∀ b ∈ after, ¬ P b

section IsLast

variable {γ : Type} {P : γ → Prop} {l : List γ} {a b : γ}

theorem not_isLast_nil : ¬ IsLast P [] a := by
  rintro ⟨before, after, h, -⟩
  simp at h

theorem IsLast.prop (h : IsLast P l a) : P a := by
  obtain ⟨before, after, -, ha, -⟩ := h
  exact ha

/-- A list that grows at its end has the new element as the last of its kind, or the old one. -/
theorem isLast_append_singleton :
    IsLast P (l ++ [a]) b ↔ (P a ∧ b = a) ∨ (¬ P a ∧ IsLast P l b) := by
  constructor
  · rintro ⟨before, after, hl, hb, hafter⟩
    induction after using List.reverseRecOn with
    | nil =>
        obtain ⟨-, heq⟩ := List.append_inj' hl rfl
        obtain rfl := List.singleton_inj.1 heq
        exact Or.inl ⟨hb, rfl⟩
    | append_singleton after c _ =>
        rw [← List.cons_append, ← List.append_assoc] at hl
        obtain ⟨hinit, heq⟩ := List.append_inj' hl rfl
        obtain rfl := List.singleton_inj.1 heq
        exact Or.inr ⟨hafter a (by simp), before, after, hinit, hb,
          fun d hd => hafter d (List.mem_append_left _ hd)⟩
  · rintro (⟨ha, rfl⟩ | ⟨ha, before, after, rfl, hb, hafter⟩)
    · exact ⟨l, [], rfl, ha, by simp⟩
    · refine ⟨before, after ++ [a], by simp, hb, fun d hd => ?_⟩
      rcases List.mem_append.1 hd with hd | hd
      · exact hafter d hd
      · rwa [List.mem_singleton.1 hd]

end IsLast

end CocoaPaho.Base
