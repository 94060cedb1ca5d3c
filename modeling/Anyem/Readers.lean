import Mathlib.Data.List.Infix

/-!
# Readers of texts that say where they end

A reader takes what it reads off the front of a text, or fails. A text says
where it ends when a reader gets the same from it whatever stands behind it.
Then nothing can be read from a front part of it. The rules follow the structure
of a reader.
-/

namespace Readers

variable {α β γ : Type}

abbrev Reader (α β : Type) := StateT (List α) Option β

section Pieces

/-- A reader that fails. -/
def nothing : Reader α β := fun _ => none

/-- A value that may be missing, with nothing read. -/
def given (b : Option β) : Reader α β := fun s => b.map fun b => (b, s)

def letter : Reader α α
  | [] => none
  | a :: s => some (a, s)

/-- As many letters as are asked for. -/
def word (n : ℕ) : Reader α (List α) := fun s =>
  if n ≤ s.length then some (s.take n, s.drop n) else none

variable [DecidableEq α]

/-- A fixed word. -/
def literal (w : List α) : Reader α Unit := fun s =>
  if w <+: s then some ((), s.drop w.length) else none

/-- What stands before a letter, and the letter. -/
def upTo (stop : α) : Reader α (List α)
  | [] => none
  | a :: s => if a = stop then some ([], s) else (upTo stop s).map fun p => (a :: p.1, p.2)

end Pieces

theorem bind_read (r : Reader α β) (f : β → Reader α γ) (s : List α) :
    (r >>= f) s = (r s).bind fun p => f p.1 p.2 := rfl

/-- The reader gets `b` from `w`, whatever stands behind it. -/
def Reads (r : Reader α β) (w : List α) (b : β) : Prop := ∀ rest, r (w ++ rest) = some (b, rest)

/-- What the first reader gets from a text, the second one gets from it with
more behind it. -/
def Carries (r r' : Reader α β) : Prop :=
  ∀ s b rest more, r s = some (b, rest) → r' (s ++ more) = some (b, rest ++ more)

/-- Whatever the reader gets is as `P` says. -/
def Gives (r : Reader α β) (P : β → Prop) : Prop := ∀ s b rest, r s = some (b, rest) → P b

section Reading

theorem Reads.pure (b : β) : Reads (pure b : Reader α β) [] b := fun _ => rfl

theorem Reads.bind {r : Reader α β} {f : β → Reader α γ} {w v : List α} {b : β} {c : γ}
    (first : Reads r w b) (next : Reads (f b) v c) : Reads (r >>= f) (w ++ v) c := by
  intro rest
  rw [bind_read, List.append_assoc, first]
  exact next rest

/-- Nothing is read behind the first step. -/
theorem Reads.ended {r : Reader α β} {f : β → Reader α γ} {w : List α} {b : β} {c : γ}
    (first : Reads r w b) (next : Reads (f b) [] c) : Reads (r >>= f) w c := by
  have reads := first.bind next
  rwa [List.append_nil] at reads

theorem Reads.given {o : Option β} {b : β} (present : o = some b) :
    Reads (α := α) (given o) [] b := by
  intro rest
  rw [Readers.given, present]
  rfl

theorem Reads.letter (a : α) : Reads letter [a] a := fun _ => rfl

theorem Reads.word {n : ℕ} {w : List α} (size : w.length = n) : Reads (word n) w w := by
  intro rest
  rw [Readers.word, if_pos (by simp [size]), List.take_left' size, List.drop_left' size]

variable [DecidableEq α]

theorem Reads.literal (w : List α) : Reads (literal w) w () := by
  intro rest
  rw [Readers.literal, if_pos (List.prefix_append w rest), List.drop_left]

theorem Reads.upTo {stop : α} {w : List α} (absent : stop ∉ w) :
    Reads (upTo stop) (w ++ [stop]) w := by
  intro rest
  induction w with
  | nil => simp [Readers.upTo]
  | cons a w ih =>
    have other : ¬ a = stop := fun same => absent (same ▸ List.mem_cons_self)
    have later : stop ∉ w := fun member => absent (List.mem_cons_of_mem a member)
    rw [List.cons_append, List.cons_append, Readers.upTo, if_neg other, ih later]
    rfl

end Reading

section Carrying

theorem Carries.nothing (r : Reader α β) : Carries nothing r := by
  intro s b rest more failed
  cases failed

theorem Carries.pure (b : β) : Carries (pure b : Reader α β) (pure b) := by
  intro s b' rest more ran
  cases ran
  rfl

theorem Carries.given (o : Option β) : Carries (α := α) (given o) (given o) := by
  intro s b rest more ran
  obtain ⟨b', present, same⟩ := Option.map_eq_some_iff.mp ran
  cases same
  rw [Readers.given, present]
  rfl

theorem Carries.bind {r r' : Reader α β} {f f' : β → Reader α γ} (first : Carries r r')
    (next : ∀ b, Carries (f b) (f' b)) : Carries (r >>= f) (r' >>= f') := by
  intro s c rest more ran
  rw [bind_read] at ran
  obtain ⟨⟨b, left⟩, ran₁, ran₂⟩ := Option.bind_eq_some_iff.mp ran
  rw [bind_read, first s b left more ran₁]
  exact next b left c rest more ran₂

theorem Carries.letter : Carries (α := α) letter letter := by
  intro s a rest more ran
  cases s with
  | nil => cases ran
  | cons b s =>
    cases ran
    rfl

theorem Carries.word (n : ℕ) : Carries (α := α) (word n) (word n) := by
  intro s w rest more ran
  rw [Readers.word] at ran
  split at ran
  · rename_i enough
    cases ran
    rw [Readers.word, if_pos (by rw [List.length_append]; omega),
      List.take_append_of_le_length enough, List.drop_append_of_le_length enough]
  · cases ran

variable [DecidableEq α]

theorem Carries.literal (w : List α) : Carries (literal w) (literal w) := by
  intro s b rest more ran
  rw [Readers.literal] at ran
  split at ran
  · rename_i front
    cases ran
    rw [Readers.literal, if_pos (front.trans (List.prefix_append s more)),
      List.drop_append_of_le_length front.length_le]
  · cases ran

theorem Carries.upTo (stop : α) : Carries (upTo stop) (upTo stop) := by
  intro s w rest more ran
  induction s generalizing w with
  | nil => cases ran
  | cons a s ih =>
    rw [Readers.upTo] at ran
    rw [List.cons_append, Readers.upTo]
    split at ran
    · rename_i found
      cases ran
      rw [if_pos found]
    · rename_i other
      obtain ⟨⟨w', rest'⟩, ran', same⟩ := Option.map_eq_some_iff.mp ran
      cases same
      rw [if_neg other, ih w' ran']
      rfl

end Carrying

section Giving

variable {P : β → Prop} {Q : γ → Prop}

theorem Gives.any (r : Reader α β) : Gives r fun _ => True := fun _ _ _ _ => trivial

theorem Gives.nothing (P : β → Prop) : Gives (α := α) nothing P := by
  intro s b rest ran
  cases ran

theorem Gives.pure {b : β} (holds : P b) : Gives (pure b : Reader α β) P := by
  intro s b' rest ran
  cases ran
  exact holds

theorem Gives.bind {r : Reader α β} {f : β → Reader α γ} (first : Gives r P)
    (next : ∀ b, P b → Gives (f b) Q) : Gives (r >>= f) Q := by
  intro s c rest ran
  rw [bind_read] at ran
  obtain ⟨⟨b, left⟩, ran₁, ran₂⟩ := Option.bind_eq_some_iff.mp ran
  exact next b (first s b left ran₁) left c rest ran₂

/-- A first step about which nothing has to be known. -/
theorem Gives.behind {r : Reader α β} {f : β → Reader α γ} (next : ∀ b, Gives (f b) Q) :
    Gives (r >>= f) Q := (Gives.any r).bind fun b _ => next b

end Giving

section Ends

variable {r r' : Reader α β}

/-- Nothing can be read from a front part of a text that says where it ends. -/
theorem Reads.cut_fails {w p : List α} {b : β} (reads : Reads r' w b) (carries : Carries r r')
    (front : p <+: w) (cut : p ≠ w) : r p = none := by
  cases ran : r p with
  | none => rfl
  | some found =>
    obtain ⟨c, rest⟩ := found
    obtain ⟨more, joined⟩ := front
    have whole := reads []
    rw [List.append_nil, ← joined, carries p c rest more ran] at whole
    have nothingLeft : more = [] := by
      have left := congrArg Prod.snd (Option.some.inj whole)
      exact (List.append_eq_nil_iff.mp left).2
    rw [nothingLeft, List.append_nil] at joined
    exact False.elim (cut joined)

end Ends

end Readers
