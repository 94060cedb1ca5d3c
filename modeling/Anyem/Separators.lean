import Mathlib.Data.List.Infix

/-!
# Words joined and cut at separators

Cutting a word at the first occurrence of a delimiter, and joining words by a
doubled letter `xx`. Joined words that avoid `xx` can still be read back in two
ways, since a single `x` next to a joint can change sides. The lemmas say when
that happens: at one joint the other reading is shifted by one letter, and a
word of three parts has one reading exactly when both joints are balanced.
-/

namespace Separators

universe u
variable {α : Type u}

section FirstOccurrence
variable [DecidableEq α]

/-- What stands before and after the first occurrence of a nonempty delimiter. -/
def cut (delimiter : List α) : List α → Option (List α × List α)
  | [] => none
  | a :: s =>
    if delimiter <+: a :: s then some ([], (a :: s).drop delimiter.length)
    else (cut delimiter s).map fun p => (a :: p.1, p.2)

theorem cut_isSome_iff {delimiter : List α} (nonempty : delimiter ≠ []) (s : List α) :
    (cut delimiter s).isSome = true ↔ delimiter <:+: s := by
  induction s with
  | nil => simp [cut, nonempty]
  | cons a s ih =>
    rw [List.infix_cons_iff, cut]
    by_cases h : delimiter <+: a :: s
    · rw [if_pos h]
      simp [h]
    · rw [if_neg h, Option.isSome_map, ih]
      simp [h]

/-- After the word, the delimiter occurs for the first time when it is complete. -/
def OnlyAtEnd (delimiter p : List α) : Prop :=
  ∀ u v, p ++ delimiter = u ++ delimiter ++ v → v = []

omit [DecidableEq α] in
theorem onlyAtEnd_nil (delimiter : List α) : OnlyAtEnd delimiter [] := by
  intro u v same
  have lengths := congrArg List.length same
  simp only [List.nil_append, List.length_append] at lengths
  exact List.length_eq_zero_iff.mp (by omega)

omit [DecidableEq α] in
theorem OnlyAtEnd.tail {delimiter p : List α} {a : α} (only : OnlyAtEnd delimiter (a :: p)) :
    OnlyAtEnd delimiter p := by
  intro u v same
  exact only (a :: u) v (by simp [same])

omit [DecidableEq α] in
/-- A word at whose front the delimiter is not is still free of it. -/
theorem OnlyAtEnd.cons {delimiter p : List α} {a : α} (only : OnlyAtEnd delimiter p)
    (absent : ¬ delimiter <+: a :: (p ++ delimiter)) : OnlyAtEnd delimiter (a :: p) := by
  intro u v same
  cases u with
  | nil => exact False.elim (absent ⟨v, same.symm⟩)
  | cons b u =>
    simp only [List.cons_append, List.cons.injEq] at same
    exact only u v same.2

omit [DecidableEq α] in
/-- A delimiter that starts the joined word is the one it was joined with. -/
theorem OnlyAtEnd.eq_nil {delimiter p r : List α} (only : OnlyAtEnd delimiter p)
    (front : delimiter <+: p ++ delimiter ++ r) : p = [] := by
  have within : delimiter <+: p ++ delimiter :=
    List.prefix_of_prefix_length_le front (List.prefix_append _ r) (by simp)
  obtain ⟨v, same⟩ := within
  have short : v = [] := only [] v same.symm
  have lengths := congrArg List.length same
  simp only [short, List.append_nil, List.length_append] at lengths
  exact List.length_eq_zero_iff.mp (by omega)

/-- A word is cut where the delimiter is complete for the first time. -/
theorem cut_eq_some_iff {delimiter : List α} (nonempty : delimiter ≠ []) {s p r : List α} :
    cut delimiter s = some (p, r) ↔ s = p ++ delimiter ++ r ∧ OnlyAtEnd delimiter p := by
  induction s generalizing p with
  | nil => simp [cut, nonempty]
  | cons a s ih =>
    by_cases front : delimiter <+: a :: s
    · rw [cut, if_pos front]
      obtain ⟨t, joined⟩ := front
      rw [← joined, List.drop_left, Option.some.injEq, Prod.mk.injEq]
      constructor
      · rintro ⟨rfl, rfl⟩
        exact ⟨rfl, onlyAtEnd_nil delimiter⟩
      · rintro ⟨same, only⟩
        have first : p = [] := only.eq_nil ⟨t, same⟩
        subst first
        exact ⟨rfl, List.append_cancel_left same⟩
    · rw [cut, if_neg front]
      constructor
      · intro cuts
        obtain ⟨⟨p', r'⟩, cuts', same⟩ := Option.map_eq_some_iff.mp cuts
        cases same
        obtain ⟨rfl, only⟩ := ih.mp cuts'
        refine ⟨rfl, only.cons ?_⟩
        intro found
        exact front (found.trans ⟨r', by simp⟩)
      · rintro ⟨same, only⟩
        cases p with
        | nil => exact False.elim (front ⟨r, same.symm⟩)
        | cons b p =>
          simp only [List.cons_append, List.cons.injEq] at same
          obtain ⟨rfl, rfl⟩ := same
          rw [ih.mpr ⟨rfl, only.tail⟩]
          rfl

end FirstOccurrence

section DoubledSeparator

/-- The word does not contain the letter `x` twice in a row. -/
def Avoids (x : α) (w : List α) : Prop := ¬ [x, x] <:+: w

/-- The word ends in the letter `x`. -/
def Ends (x : α) (w : List α) : Prop := [x] <:+ w

/-- The word starts with the letter `x`. -/
def Starts (x : α) (w : List α) : Prop := [x] <+: w

instance [DecidableEq α] (x : α) (w : List α) : Decidable (Avoids x w) :=
  inferInstanceAs (Decidable (¬ [x, x] <:+: w))

instance [DecidableEq α] (x : α) (w : List α) : Decidable (Ends x w) :=
  inferInstanceAs (Decidable ([x] <:+ w))

instance [DecidableEq α] (x : α) (w : List α) : Decidable (Starts x w) :=
  inferInstanceAs (Decidable ([x] <+: w))

variable {x : α}

theorem Avoids.left {u v : List α} (h : Avoids x (u ++ v)) : Avoids x u :=
  fun hu => h (hu.trans (List.infix_append' [] u v))

theorem Avoids.tail {a : α} {u : List α} (h : Avoids x (a :: u)) : Avoids x u :=
  fun hu => h (hu.trans (List.suffix_cons a u).isInfix)

theorem not_avoids_joined (u v : List α) : ¬ Avoids x (u ++ x :: x :: v) :=
  fun h => h ⟨u, v, by simp⟩

theorem starts_cons (u : List α) : Starts x (x :: u) := ⟨u, rfl⟩

theorem ends_snoc (u : List α) : Ends x (u ++ [x]) := ⟨u, rfl⟩

theorem starts_iff {w : List α} : Starts x w ↔ ∃ u, w = x :: u :=
  ⟨fun ⟨u, h⟩ => ⟨u, h.symm⟩, fun ⟨u, h⟩ => ⟨u, h.symm⟩⟩

theorem ends_iff {w : List α} : Ends x w ↔ ∃ u, w = u ++ [x] :=
  ⟨fun ⟨u, h⟩ => ⟨u, h.symm⟩, fun ⟨u, h⟩ => ⟨u, h.symm⟩⟩

/-- A word that starts with another letter, or is empty, can take one more `x`
in front. -/
theorem Avoids.cons {u : List α} (h : Avoids x u) (other : ¬ Starts x u) : Avoids x (x :: u) := by
  intro hx
  rcases List.infix_cons_iff.mp hx with hx | hx
  · exact other ((List.cons_prefix_cons.mp hx).2)
  · exact h hx

theorem Avoids.snoc {u : List α} (h : Avoids x u) (other : ¬ Ends x u) : Avoids x (u ++ [x]) := by
  rintro ⟨s, t, hst⟩
  rcases List.eq_nil_or_concat t with rfl | ⟨t', a, rfl⟩
  · have hu : s ++ [x] = u := by
      have : (s ++ [x]) ++ [x] = u ++ [x] := by simpa using hst
      exact (List.append_inj' this rfl).1
    exact other ⟨s, hu⟩
  · have hu : s ++ [x, x] ++ t' = u := by
      have : (s ++ [x, x] ++ t') ++ [a] = u ++ [x] := by simpa using hst
      exact (List.append_inj' this rfl).1
    exact h ⟨s, t', hu⟩

theorem Avoids.not_starts {u : List α} (h : Avoids x (x :: u)) : ¬ Starts x u := by
  intro hs
  obtain ⟨v, rfl⟩ := starts_iff.mp hs
  exact not_avoids_joined [] v h

theorem Avoids.not_ends {u : List α} (h : Avoids x (u ++ [x])) : ¬ Ends x u := by
  intro he
  obtain ⟨v, rfl⟩ := ends_iff.mp he
  exact not_avoids_joined v [] (by simpa using h)

/-- One joint is read back in at most two ways, shifted by one letter. -/
theorem joint_shift {u v u' v' : List α} (hu : Avoids x u) (hu' : Avoids x u')
    (same : u ++ x :: x :: v = u' ++ x :: x :: v') :
    (u = u' ∧ v = v') ∨ (u' = u ++ [x] ∧ v = x :: v') ∨ (u = u' ++ [x] ∧ v' = x :: v) := by
  rcases List.append_eq_append_iff.mp same with ⟨a, ha, hv⟩ | ⟨a, ha, hv⟩
  · match a with
    | [] =>
      have h : u = u' := by simpa using ha.symm
      have h' : v = v' := by simpa using hv
      exact Or.inl ⟨h, h'⟩
    | [b] =>
      simp only [List.cons_append, List.nil_append, List.cons.injEq] at hv
      obtain ⟨rfl, -, hv⟩ := hv
      exact Or.inr (Or.inl ⟨ha, hv⟩)
    | b :: c :: a' =>
      simp only [List.cons_append, List.cons.injEq] at hv
      obtain ⟨rfl, rfl, -⟩ := hv
      rw [ha] at hu'
      exact False.elim (not_avoids_joined u a' hu')
  · match a with
    | [] =>
      have h : u = u' := by simpa using ha
      have h' : v = v' := by simpa using hv.symm
      exact Or.inl ⟨h, h'⟩
    | [b] =>
      simp only [List.cons_append, List.nil_append, List.cons.injEq] at hv
      obtain ⟨rfl, -, hv⟩ := hv
      exact Or.inr (Or.inr ⟨ha, hv⟩)
    | b :: c :: a' =>
      simp only [List.cons_append, List.cons.injEq] at hv
      obtain ⟨rfl, rfl, -⟩ := hv
      rw [ha] at hu
      exact False.elim (not_avoids_joined u' a' hu)

/-- Three words joined by `xx`. -/
def join₃ (x : α) (u v w : List α) : List α := u ++ x :: x :: (v ++ x :: x :: w)

/-- Neither joint has a single `x` on exactly one side. -/
def Balanced (x : α) (u v w : List α) : Prop :=
  (Ends x u ↔ Starts x v) ∧ (Ends x v ↔ Starts x w)

theorem join₃_unique_of_balanced {u v w u' v' w' : List α} (balanced : Balanced x u v w)
    (hu : Avoids x u) (hv : Avoids x v) (hw : Avoids x w)
    (hu' : Avoids x u') (hv' : Avoids x v') (hw' : Avoids x w')
    (same : join₃ x u v w = join₃ x u' v' w') : u = u' ∧ v = v' ∧ w = w' := by
  rcases joint_shift hu hu' same with ⟨rfl, rest⟩ | ⟨rfl, rest⟩ | ⟨rfl, rest⟩
  · rcases joint_shift hv hv' rest with ⟨rfl, rfl⟩ | ⟨rfl, rfl⟩ | ⟨rfl, rfl⟩
    · exact ⟨rfl, rfl, rfl⟩
    · have he : Ends x v := balanced.2.mpr (starts_cons w')
      exact False.elim (hv'.not_ends he)
    · have hs : Starts x w := balanced.2.mp (ends_snoc v')
      exact False.elim (hw'.not_starts hs)
  · -- The first word of the other reading took an `x` that `v` does not have.
    have plain : ¬ Starts x v := fun hs => hu'.not_ends (balanced.1.mpr hs)
    match v with
    | [] =>
      have short : ¬ Starts x w := fun hs => by
        have := balanced.2.mpr hs
        simp [Ends] at this
      match v' with
      | [] =>
        simp only [List.nil_append, List.cons.injEq, true_and] at rest
        exact False.elim (short (rest ▸ starts_cons w'))
      | b :: v'' =>
        simp only [List.nil_append, List.cons_append, List.cons.injEq, true_and] at rest
        rw [rest.2] at hw
        exact False.elim (not_avoids_joined v'' w' hw)
    | b :: v'' =>
      simp only [List.cons_append, List.cons.injEq] at rest
      exact False.elim (plain (rest.1 ▸ starts_cons v''))
  · -- The first word gave an `x` away, so `v` starts with one more.
    obtain ⟨v₁, rfl⟩ := starts_iff.mp (balanced.1.mp (ends_snoc u'))
    match v' with
    | [] =>
      simp only [List.nil_append, List.cons_append, List.cons.injEq, true_and] at rest
      rw [rest] at hw'
      exact False.elim (not_avoids_joined v₁ w hw')
    | b :: v'₁ =>
      simp only [List.cons_append, List.cons.injEq] at rest
      obtain ⟨rfl, rest⟩ := rest
      match v'₁ with
      | [] =>
        match v₁ with
        | [] =>
          simp only [List.nil_append, List.cons.injEq, true_and] at rest
          obtain ⟨w₁, rfl⟩ := starts_iff.mp (balanced.2.mp ⟨[], rfl⟩)
          rw [rest] at hw'
          exact False.elim (hw'.not_starts (starts_cons w₁))
        | c :: v₂ =>
          simp only [List.nil_append, List.cons_append, List.cons.injEq, true_and] at rest
          exact False.elim (hv.not_starts (rest.1 ▸ starts_cons v₂))
      | c :: v'₂ =>
        simp only [List.cons_append, List.cons.injEq] at rest
        exact False.elim (hv'.not_starts (rest.1 ▸ starts_cons v'₂))

/-- An unbalanced joint lets a single `x` change sides. -/
theorem exists_other_reading {u v w : List α} (unbalanced : ¬ Balanced x u v w)
    (hu : Avoids x u) (hv : Avoids x v) (hw : Avoids x w) :
    ∃ u' v' w', Avoids x u' ∧ Avoids x v' ∧ Avoids x w' ∧
      join₃ x u v w = join₃ x u' v' w' ∧ ¬ (u = u' ∧ v = v' ∧ w = w') := by
  by_cases first : Ends x u ↔ Starts x v
  · have second : ¬ (Ends x v ↔ Starts x w) := fun h => unbalanced ⟨first, h⟩
    by_cases he : Ends x v
    · have hs : ¬ Starts x w := fun hs => second (iff_of_true he hs)
      obtain ⟨v₁, rfl⟩ := ends_iff.mp he
      exact ⟨u, v₁, x :: w, hu, hv.left, hw.cons hs, by simp [join₃], by simp⟩
    · have hs : Starts x w := by
        by_contra hs
        exact second (iff_of_false he hs)
      obtain ⟨w₁, rfl⟩ := starts_iff.mp hs
      exact ⟨u, v ++ [x], w₁, hu, hv.snoc he, hw.tail, by simp [join₃], by simp⟩
  · by_cases he : Ends x u
    · have hs : ¬ Starts x v := fun hs => first (iff_of_true he hs)
      obtain ⟨u₁, rfl⟩ := ends_iff.mp he
      exact ⟨u₁, x :: v, w, hu.left, hv.cons hs, hw, by simp [join₃], by simp⟩
    · have hs : Starts x v := by
        by_contra hs
        exact first (iff_of_false he hs)
      obtain ⟨v₁, rfl⟩ := starts_iff.mp hs
      exact ⟨u ++ [x], v₁, w, hu.snoc he, hv.tail, hw, by simp [join₃], by simp⟩

end DoubledSeparator

end Separators
