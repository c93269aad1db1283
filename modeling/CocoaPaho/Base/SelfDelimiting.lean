import Mathlib.Data.List.Basic

/-!
Self-delimiting codes, over an arbitrary alphabet. A code may be followed by nothing or by a symbol
that stops it; two codes at the front of one text then belong to the same thing and end at the same
place. The rules used below: for a code that has a reader, for a code in which no stop occurs, for a
sequence of codes up to a closing symbol, and for codes between separators and a closing symbol.
-/

namespace CocoaPaho.Base

variable {α β γ : Type}

/-- What may follow a code: nothing, or a text that begins with a stop. -/
def Stops (stop : α → Prop) (rest : List α) : Prop := ∀ a ∈ rest.head?, stop a

/-- Whenever two codes are at the front of one text, `P` holds and the rest is the same. -/
def Splits (stop : α → Prop) (l l' : List α) (P : Prop) : Prop :=
  ∀ x y, Stops stop x → Stops stop y → l ++ x = l' ++ y → P ∧ x = y

/-- A code that is not empty and begins with something else than a given symbol. -/
def BeginsOther (a : α) (l : List α) : Prop := ∃ b rest, l = b :: rest ∧ b ≠ a

variable {stop stop' : α → Prop} {l l' : List α} {P Q : Prop} {a : α} {rest : List α}

theorem stops_cons (h : stop a) : Stops stop (a :: rest) := by
  intro b hb
  cases hb
  exact h

theorem stops_true : Stops (fun _ => True) rest := fun _ _ => trivial

theorem Splits.imp (h : Splits stop l l' P) (hPQ : P → Q) : Splits stop l l' Q :=
  fun x y hx hy heq => ⟨hPQ (h x y hx hy heq).1, (h x y hx hy heq).2⟩

theorem Splits.cons (h : Splits stop l l' P) (a : α) : Splits stop (a :: l) (a :: l') P :=
  fun x y hx hy heq => h x y hx hy (List.cons.inj heq).2

/-- Equal codes. -/
theorem splits_self (h : P) : Splits stop l l P := fun _ _ _ _ heq => ⟨h, List.append_cancel_left heq⟩

/-- A code after one that needs no stop. -/
theorem Splits.append {m m' : List α} (h : Splits (fun _ => True) l l' P) (h' : Splits stop m m' Q) :
    Splits stop (l ++ m) (l' ++ m') (P ∧ Q) := by
  intro x y hx hy heq
  rw [List.append_assoc, List.append_assoc] at heq
  obtain ⟨hP, hrest⟩ := h _ _ stops_true stops_true heq
  obtain ⟨hQ, hxy⟩ := h' x y hx hy hrest
  exact ⟨⟨hP, hQ⟩, hxy⟩

/-- Codes that begin differently are never at the front of one text. -/
theorem splits_of_head_ne {b : α} (h : a ≠ b) : Splits stop (a :: l) (b :: l') P :=
  fun _ _ _ _ heq => absurd (List.cons.inj heq).1 h

/-- A code that can be read back, whatever follows. -/
theorem splits_of_reader {code : β → List α} {read : List α → Option (β × List α)}
    (hread : ∀ b rest, read (code b ++ rest) = some (b, rest)) (b b' : β) :
    Splits stop (code b) (code b') (b = b') := by
  intro x y _ _ heq
  have hx := hread b x
  rw [heq, hread] at hx
  cases hx
  exact ⟨rfl, rfl⟩

/-- Codes without a stop end where the first stop is. -/
theorem splits_of_no_stop (hl : ∀ a ∈ l, ¬ stop a) (hl' : ∀ a ∈ l', ¬ stop a) :
    Splits stop l l' (l = l') := by
  intro x y hx hy heq
  induction l generalizing l' with
  | nil =>
      cases l' with
      | nil => exact ⟨rfl, heq⟩
      | cons b l' =>
          rw [List.nil_append] at heq
          exact absurd (hx b (by rw [heq]; rfl)) (hl' b List.mem_cons_self)
  | cons a l ih =>
      cases l' with
      | nil =>
          rw [List.nil_append] at heq
          exact absurd (hy a (by rw [← heq]; rfl)) (hl a List.mem_cons_self)
      | cons b l' =>
          obtain ⟨rfl, htail⟩ := List.cons.inj heq
          obtain ⟨rfl, hrest⟩ := ih (fun c hc => hl c (List.mem_cons_of_mem _ hc))
            (fun c hc => hl' c (List.mem_cons_of_mem _ hc)) htail
          exact ⟨rfl, hrest⟩

/-- Codes one after the other, up to a symbol with which none of them begins. -/
theorem splits_flatMap {code : β → List α} {close : α}
    (hcode : ∀ b b', Splits (fun _ => True) (code b) (code b') (b = b'))
    (hbegins : ∀ b, BeginsOther close (code b)) (bs bs' : List β) :
    Splits stop (bs.flatMap code ++ [close]) (bs'.flatMap code ++ [close]) (bs = bs') := by
  have hclosed : ∀ (b : β) (u v : List α), close :: u ≠ code b ++ v := by
    intro b u v heq
    obtain ⟨c, t, hc, hne⟩ := hbegins b
    rw [hc] at heq
    exact hne (List.cons.inj heq).1.symm
  intro x y _ _ heq
  rw [List.append_assoc, List.append_assoc] at heq
  induction bs generalizing bs' with
  | nil =>
      cases bs' with
      | nil => exact ⟨rfl, (List.cons.inj heq).2⟩
      | cons b bs' =>
          rw [List.flatMap_cons, List.append_assoc] at heq
          exact absurd heq (hclosed b _ _)
  | cons b bs ih =>
      cases bs' with
      | nil =>
          rw [List.flatMap_cons, List.append_assoc] at heq
          exact absurd heq.symm (hclosed b _ _)
      | cons b' bs' =>
          rw [List.flatMap_cons, List.flatMap_cons, List.append_assoc, List.append_assoc] at heq
          obtain ⟨rfl, htail⟩ := hcode b b' _ _ stops_true stops_true heq
          obtain ⟨rfl, hrest⟩ := ih bs' htail
          exact ⟨rfl, hrest⟩

/-- What follows the first of several codes. -/
def tailCode (sep : α) : List (List α) → List α
  | [] => []
  | l :: ls => sep :: [sep].intercalate (l :: ls)

theorem intercalate_cons_eq (sep : α) (l : List α) (ls : List (List α)) :
    [sep].intercalate (l :: ls) = l ++ tailCode sep ls := by
  cases ls with
  | nil => rw [List.intercalate_singleton, tailCode, List.append_nil]
  | cons l' ls => rw [List.intercalate_cons_cons, tailCode, List.append_assoc, List.singleton_append]

theorem mem_intercalate {sep : α} {ls : List (List α)} (h : a ∈ [sep].intercalate ls) :
    a = sep ∨ ∃ l ∈ ls, a ∈ l := by
  induction ls with
  | nil => cases h
  | cons l ls ih =>
      rw [intercalate_cons_eq, List.mem_append] at h
      rcases h with h | h
      · exact Or.inr ⟨l, List.mem_cons_self, h⟩
      · cases ls with
        | nil => cases h
        | cons l' ls =>
            rcases List.mem_cons.1 h with h | h
            · exact Or.inl h
            · obtain hsep | ⟨m, hm, ha⟩ := ih h
              · exact Or.inl hsep
              · exact Or.inr ⟨m, List.mem_cons_of_mem _ hm, ha⟩

/-- **Codes between separators.** Codes that a separator or the closing symbol stops, and that do not
begin with the closing symbol, are told apart one by one. -/
theorem splits_intercalate {f : β → List α} {g : γ → List α} {R : β → γ → Prop} {sep close : α}
    (hsep : stop sep) (hclose : stop close) (hne : sep ≠ close) {bs : List β} {cs : List γ}
    (hsplits : ∀ b ∈ bs, ∀ c ∈ cs, Splits stop (f b) (g c) (R b c))
    (hf : ∀ b ∈ bs, BeginsOther close (f b)) (hg : ∀ c ∈ cs, BeginsOther close (g c)) :
    Splits stop' ([sep].intercalate (bs.map f) ++ [close]) ([sep].intercalate (cs.map g) ++ [close])
      (List.Forall₂ R bs cs) := by
  have hclosed : ∀ {l u v : List α}, BeginsOther close l → close :: u ≠ l ++ v := by
    rintro l u v ⟨b, t, rfl, hb⟩ heq
    exact hb (List.cons.inj heq).1.symm
  have hstops : ∀ (ls : List (List α)) (x : List α), Stops stop (tailCode sep ls ++ close :: x) := by
    intro ls x
    cases ls with
    | nil => exact stops_cons hclose
    | cons l ls => exact stops_cons hsep
  intro x y _ _ heq
  rw [List.append_assoc, List.append_assoc] at heq
  induction bs generalizing cs with
  | nil =>
      cases cs with
      | nil => exact ⟨List.Forall₂.nil, (List.cons.inj heq).2⟩
      | cons c cs =>
          rw [List.map_cons, intercalate_cons_eq, List.append_assoc] at heq
          exact absurd heq (hclosed (hg c List.mem_cons_self))
  | cons b bs ih =>
      cases cs with
      | nil =>
          rw [List.map_cons, intercalate_cons_eq, List.append_assoc] at heq
          exact absurd heq.symm (hclosed (hf b List.mem_cons_self))
      | cons c cs =>
          rw [List.map_cons, List.map_cons, intercalate_cons_eq, intercalate_cons_eq,
            List.append_assoc, List.append_assoc] at heq
          obtain ⟨hbc, htail⟩ := hsplits b List.mem_cons_self c List.mem_cons_self _ _
            (hstops _ x) (hstops _ y) heq
          -- the rest begins with the closing symbol on both sides, or with a separator on both
          cases bs with
          | nil =>
              cases cs with
              | nil => exact ⟨.cons hbc .nil, (List.cons.inj htail).2⟩
              | cons c' cs => exact absurd (List.cons.inj htail).1.symm hne
          | cons b' bs =>
              cases cs with
              | nil => exact absurd (List.cons.inj htail).1 hne
              | cons c' cs =>
                  obtain ⟨hrest, hxy⟩ := ih
                    (fun e he d hd => hsplits e (List.mem_cons_of_mem _ he) d
                      (List.mem_cons_of_mem _ hd))
                    (fun e he => hf e (List.mem_cons_of_mem _ he))
                    (fun d hd => hg d (List.mem_cons_of_mem _ hd)) (List.cons.inj htail).2
                  exact ⟨.cons hbc hrest, hxy⟩

end CocoaPaho.Base
