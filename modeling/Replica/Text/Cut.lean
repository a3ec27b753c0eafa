/-
# Cutting at a separator

`cut?` cuts a list in two at the first separator in it.  `pieces` cuts it at every separator, so there
is one piece more than there are separators.

* `cut?_eq_some`, `cut?_append`: the first part has no separator, and nothing is lost;
* `pieces_append`: pieces without separators, joined by one, are cut apart again;
* `intercalate_pieces`, `pieces_intercalate`: joining and cutting undo each other.
-/

namespace Replica.Text

variable {α : Type} [DecidableEq α]

/-! ## 1. At the first separator -/

/-- The parts before and after the first separator. -/
def cut? (separator : α) (cs : List α) : Option (List α × List α) :=
  match cs.dropWhile (· ≠ separator) with
  | [] => none
  | _ :: rest => some (cs.takeWhile (· ≠ separator), rest)

theorem cut?_append {separator : α} {a b : List α} (h : separator ∉ a) :
    cut? separator (a ++ separator :: b) = some (a, b) := by
  have ha : ∀ c ∈ a, decide (c ≠ separator) = true := by
    intro c hc
    have : c ≠ separator := fun e => h (e ▸ hc)
    simp [this]
  simp only [cut?, List.dropWhile_append_of_pos ha, List.takeWhile_append_of_pos ha]
  simp

theorem cut?_eq_some {separator : α} {cs a b : List α} (h : cut? separator cs = some (a, b)) :
    separator ∉ a ∧ cs = a ++ separator :: b := by
  induction cs generalizing a with
  | nil => simp [cut?] at h
  | cons c cs ih =>
    by_cases hc : c = separator
    · subst hc
      simp only [cut?, ne_eq, decide_not, List.dropWhile_cons, List.takeWhile_cons] at h
      simp at h
      obtain ⟨rfl, rfl⟩ := h
      simp
    · have hs : cut? separator (c :: cs) = (cut? separator cs).map fun p => (c :: p.1, p.2) := by
        simp only [cut?, List.dropWhile_cons, List.takeWhile_cons, hc, ne_eq, not_false_eq_true,
          decide_true, if_true]
        cases cs.dropWhile fun x => decide ¬x = separator <;> rfl
      rw [hs, Option.map_eq_some_iff] at h
      obtain ⟨⟨a', b'⟩, h', e⟩ := h
      simp only [Prod.mk.injEq] at e
      obtain ⟨rfl, rfl⟩ := e
      obtain ⟨hn, rfl⟩ := ih h'
      exact ⟨by simp [Ne.symm hc, hn], rfl⟩

/-! ## 2. At every separator -/

/-- The pieces between the separators. -/
def pieces (separator : α) (cs : List α) : List (List α) :=
  cs.foldr (fun c ps =>
    if c = separator then [] :: ps
    else match ps with
      | [] => [[c]]
      | p :: ps => (c :: p) :: ps) [[]]

theorem pieces_cons_self (separator : α) (cs : List α) :
    pieces separator (separator :: cs) = [] :: pieces separator cs := by
  simp [pieces]

theorem pieces_ne_nil (separator : α) (cs : List α) : pieces separator cs ≠ [] := by
  cases cs with
  | nil => simp [pieces]
  | cons c cs =>
    simp only [pieces, List.foldr_cons]
    split
    · simp
    · split <;> simp

theorem pieces_cons_of_ne {separator c : α} (h : c ≠ separator) (cs : List α) :
    ∃ p ps, pieces separator cs = p :: ps ∧ pieces separator (c :: cs) = (c :: p) :: ps := by
  obtain ⟨p, ps, hp⟩ := List.exists_cons_of_ne_nil (pieces_ne_nil separator cs)
  exact ⟨p, ps, hp, by unfold pieces at hp ⊢; simp [h, hp]⟩

theorem pieces_of_notMem {separator : α} {cs : List α} (h : separator ∉ cs) :
    pieces separator cs = [cs] := by
  induction cs with
  | nil => rfl
  | cons c cs ih =>
    simp only [List.mem_cons, not_or] at h
    obtain ⟨p, ps, hp, hc⟩ := pieces_cons_of_ne (Ne.symm h.1) cs
    rw [ih h.2] at hp
    cases hp
    exact hc

/-- The first piece ends at the first separator. -/
theorem pieces_append {separator : α} {a : List α} (h : separator ∉ a) (b : List α) :
    pieces separator (a ++ separator :: b) = a :: pieces separator b := by
  induction a with
  | nil => simp [pieces]
  | cons c a ih =>
    simp only [List.mem_cons, not_or] at h
    obtain ⟨p, ps, hp, hc⟩ := pieces_cons_of_ne (Ne.symm h.1) (a ++ separator :: b)
    rw [ih h.2] at hp
    cases hp
    exact hc

theorem notMem_of_mem_pieces {separator : α} {cs p : List α} (h : p ∈ pieces separator cs) :
    separator ∉ p := by
  induction cs generalizing p with
  | nil =>
    rw [List.mem_singleton.mp h]
    exact List.not_mem_nil
  | cons c cs ih =>
    by_cases hc : c = separator
    · rw [hc, pieces_cons_self] at h
      rcases List.mem_cons.mp h with rfl | h
      · exact List.not_mem_nil
      · exact ih h
    · obtain ⟨q, qs, hq, hcons⟩ := pieces_cons_of_ne hc cs
      rw [hcons] at h
      rw [hq] at ih
      rcases List.mem_cons.mp h with rfl | h
      · simp only [List.mem_cons, not_or]
        exact ⟨Ne.symm hc, ih List.mem_cons_self⟩
      · exact ih (List.mem_cons_of_mem q h)

/-- The pieces, joined again. -/
theorem intercalate_pieces (separator : α) (cs : List α) :
    [separator].intercalate (pieces separator cs) = cs := by
  induction cs with
  | nil => rfl
  | cons c cs ih =>
    by_cases hc : c = separator
    · obtain ⟨p, ps, hp⟩ := List.exists_cons_of_ne_nil (pieces_ne_nil separator cs)
      rw [hc, pieces_cons_self, hp, List.intercalate_cons_cons, ← hp, ih]
      rfl
    · obtain ⟨p, ps, hp, hcons⟩ := pieces_cons_of_ne hc cs
      rw [hp] at ih
      rw [hcons]
      cases ps with
      | nil =>
        rw [List.intercalate_singleton] at ih ⊢
        rw [ih]
      | cons q ps =>
        rw [List.intercalate_cons_cons] at ih ⊢
        exact congrArg (c :: ·) ih

/-- Joined pieces are cut where they were joined. -/
theorem pieces_intercalate {separator : α} : ∀ {ps : List (List α)}, ps ≠ [] →
    (∀ p ∈ ps, separator ∉ p) → pieces separator ([separator].intercalate ps) = ps
  | [], hne, _ => absurd rfl hne
  | [p], _, h => by
    rw [List.intercalate_singleton]
    exact pieces_of_notMem (h p List.mem_cons_self)
  | p :: q :: ps, _, h => by
    rw [List.intercalate_cons_cons, List.append_assoc, List.singleton_append,
      pieces_append (h p List.mem_cons_self), pieces_intercalate (List.cons_ne_nil q ps)]
    exact fun x hx => h x (List.mem_cons_of_mem p hx)

/-- What has no separator in it becomes part of the last piece. -/
theorem pieces_append_of_notMem {separator : α} (cs : List α) {ds : List α} (h : separator ∉ ds) :
    ∃ front last, pieces separator cs = front ++ [last] ∧
      pieces separator (cs ++ ds) = front ++ [last ++ ds] := by
  induction cs with
  | nil => exact ⟨[], [], rfl, pieces_of_notMem h⟩
  | cons c cs ih =>
    obtain ⟨front, last, hfront, hlonger⟩ := ih
    by_cases hc : c = separator
    · refine ⟨[] :: front, last, ?_, ?_⟩
      · rw [hc, pieces_cons_self, hfront]
        rfl
      · rw [List.cons_append, hc, pieces_cons_self, hlonger]
        rfl
    · obtain ⟨p, ps, hp, hcons⟩ := pieces_cons_of_ne hc cs
      obtain ⟨q, qs, hq, hcons'⟩ := pieces_cons_of_ne hc (cs ++ ds)
      rw [hfront] at hp
      rw [hlonger] at hq
      rw [List.cons_append, hcons, hcons']
      cases front with
      | nil =>
        cases hp
        cases hq
        exact ⟨[], c :: last, rfl, rfl⟩
      | cons x front =>
        obtain ⟨rfl, rfl⟩ := List.cons.inj hp
        obtain ⟨rfl, rfl⟩ := List.cons.inj hq
        exact ⟨(c :: x) :: front, last, rfl, rfl⟩

end Replica.Text
