import Mathlib.Data.List.Basic

/-!
Histories: lists of events, oldest first, that only ever grow at the end. A temporal property is a
condition on each event together with the events before it; it is checked on an extension by
checking the added events only, each with the whole past.
-/

namespace CocoaPaho.Base

variable {ε : Type}

/-- Every event of the history stands in the given relation to the events before it. -/
def AtEach (Q : List ε → ε → Prop) (history : List ε) : Prop :=
  ∀ past e future, history = past ++ e :: future → Q past e

@[simp] theorem atEach_nil (Q : List ε → ε → Prop) : AtEach Q [] := by
  intro past e future h
  simp at h

theorem atEach_append (Q : List ε → ε → Prop) (t u : List ε) :
    AtEach Q (t ++ u) ↔ AtEach Q t ∧ AtEach (fun past e => Q (t ++ past) e) u := by
  constructor
  · intro h
    refine ⟨fun past e future ht => h past e (future ++ u) ?_, fun past e future hu => ?_⟩
    · rw [ht, List.append_assoc, List.cons_append]
    · exact h (t ++ past) e future (by rw [hu, List.append_assoc])
  · rintro ⟨ht, hu⟩ past e future h
    rcases List.append_eq_append_iff.1 h with ⟨middle, hpast, hrest⟩ | ⟨middle, hpast, hrest⟩
    · rw [hpast]
      exact hu middle e future hrest
    · cases middle with
      | nil =>
          rw [List.append_nil] at hpast
          rw [← hpast]
          simpa using hu [] e future hrest.symm
      | cons e' middle =>
          obtain ⟨rfl, -⟩ := List.cons.inj hrest
          exact ht past e middle hpast

@[simp] theorem atEach_singleton (Q : List ε → ε → Prop) (e : ε) : AtEach Q [e] ↔ Q [] e := by
  constructor
  · exact fun h => h [] e [] rfl
  · intro h past e' future heq
    cases past with
    | nil =>
        obtain ⟨rfl, -⟩ := List.cons.inj heq
        exact h
    | cons => simp at heq

theorem AtEach.mono {Q R : List ε → ε → Prop} {t : List ε}
    (h : ∀ past e, Q past e → R past e) (ht : AtEach Q t) : AtEach R t :=
  fun past e future heq => h past e (ht past e future heq)

/-- A condition on the single events holds at each event when it holds of every member. -/
theorem atEach_of_forall_mem {Q : List ε → ε → Prop} {t : List ε}
    (h : ∀ e ∈ t, ∀ past, Q past e) : AtEach Q t := by
  intro past e future heq
  exact h e (by simp [heq]) past

/-- A history cut at the place of one of its events. -/
theorem eq_take_append_of_getElem? {t : List ε} {n : ℕ} {e : ε} (h : t[n]? = some e) :
    t = t.take n ++ e :: t.drop (n + 1) := by
  obtain ⟨hn, rfl⟩ := List.getElem?_eq_some_iff.1 h
  rw [List.getElem_cons_drop, List.take_append_drop]

/-- The events after the last one that is a mark. -/
def sinceLast (mark : ε → Bool) (t : List ε) : List ε :=
  t.foldl (fun recent e => if mark e then [] else recent ++ [e]) []

theorem sinceLast_concat_mark {mark : ε → Bool} {e : ε} (he : mark e = true) (t : List ε) :
    sinceLast mark (t ++ [e]) = [] := by
  rw [sinceLast, List.foldl_append, List.foldl_cons, List.foldl_nil, if_pos he]

theorem sinceLast_append {mark : ε → Bool} (t : List ε) {u : List ε}
    (hu : ∀ e ∈ u, mark e = false) : sinceLast mark (t ++ u) = sinceLast mark t ++ u := by
  induction u generalizing t with
  | nil => rw [List.append_nil, List.append_nil]
  | cons e u ih =>
      have he : ¬ mark e = true := by simp [hu e (List.mem_cons_self ..)]
      have hone : sinceLast mark (t ++ [e]) = sinceLast mark t ++ [e] := by
        rw [sinceLast, List.foldl_append, List.foldl_cons, List.foldl_nil, if_neg he, ← sinceLast]
      rw [List.append_cons t e u, ih (t ++ [e]) fun e' he' => hu e' (List.mem_cons_of_mem _ he'), hone,
        List.append_assoc, List.singleton_append]

end CocoaPaho.Base
