import Anyem.ReplyMachine
import Mathlib.Logic.Function.Basic

/-!
# Machines that keep one part of the state for each key

Every input has a key, and serving it reads and writes the part at that key
alone. Then the inputs of one key make a run of their own: their replies and
the part they leave do not depend on the inputs of other keys, and two inputs
of different keys can be served in either order.
-/

namespace KeyedMachine

open ReplyMachine

universe u v w x

variable {κ : Type u} {τ : Type v} {ι : Type w} {ο : Type x} [DecidableEq κ]

/-- The steps of the machine `step` are those of `act` on the part at the key. -/
structure Keyed (step : (κ → τ) → ι → ο × (κ → τ)) where
  key : ι → κ
  act : ι → τ → ο × τ
  acts : ∀ s i, step s i = ((act i (s (key i))).1, Function.update s (key i) (act i (s (key i))).2)

variable {step : (κ → τ) → ι → ο × (κ → τ)}

namespace Keyed

/-- The events of one key. -/
def events (m : Keyed step) (k : κ) (h : List (Event (κ → τ) ι ο)) : List (Event (κ → τ) ι ο) :=
  h.filter fun e => m.key e.input = k

/-- The inputs of one key. -/
def inputs (m : Keyed step) (k : κ) (is : List ι) : List ι := is.filter fun i => m.key i = k

theorem reply_eq (m : Keyed step) (s : κ → τ) (i : ι) :
    (step s i).1 = (m.act i (s (m.key i))).1 := by
  rw [m.acts]

theorem state_eq (m : Keyed step) (s : κ → τ) (i : ι) :
    (step s i).2 = Function.update s (m.key i) (m.act i (s (m.key i))).2 := by
  rw [m.acts]

theorem reply_congr (m : Keyed step) {s t : κ → τ} {i : ι} (same : s (m.key i) = t (m.key i)) :
    (step s i).1 = (step t i).1 := by
  rw [m.reply_eq, m.reply_eq, same]

theorem here_congr (m : Keyed step) {s t : κ → τ} {i : ι} (same : s (m.key i) = t (m.key i)) :
    (step s i).2 (m.key i) = (step t i).2 (m.key i) := by
  rw [m.state_eq, m.state_eq, Function.update_self, Function.update_self, same]

theorem elsewhere (m : Keyed step) (s : κ → τ) {i : ι} {k : κ} (other : m.key i ≠ k) :
    (step s i).2 k = s k := by
  rw [m.state_eq, Function.update_of_ne other.symm]

/-- The inputs of a key are served alone as they are served among all others. -/
theorem run_alone (m : Keyed step) {s t : κ → τ} {k : κ} (same : s k = t k) (is : List ι) :
    (m.events k (trace step s is)).map Event.reply = replies step t (m.inputs k is) ∧
      final step s is k = final step t (m.inputs k is) k := by
  induction is generalizing s t with
  | nil => exact ⟨rfl, same⟩
  | cons i is ih =>
    by_cases here : m.key i = k
    · subst here
      obtain ⟨hreplies, hfinal⟩ := ih (m.here_congr same)
      have hinputs : m.inputs (m.key i) (i :: is) = i :: m.inputs (m.key i) is :=
        List.filter_cons_of_pos (by simp)
      have hevents : m.events (m.key i) (trace step s (i :: is)) =
          event step s i :: m.events (m.key i) (trace step (step s i).2 is) :=
        List.filter_cons_of_pos (by simp [event])
      constructor
      · rw [hinputs, hevents, List.map_cons, hreplies]
        exact congrArg (· :: _) (m.reply_congr same)
      · rw [hinputs]
        exact hfinal
    · have hinputs : m.inputs k (i :: is) = m.inputs k is :=
        List.filter_cons_of_neg (by simpa using here)
      have hevents : m.events k (trace step s (i :: is)) =
          m.events k (trace step (step s i).2 is) :=
        List.filter_cons_of_neg (by simp [event, here])
      rw [hinputs, hevents]
      exact ih ((m.elsewhere s here).trans same)

/-- Two inputs of different keys commute. -/
theorem step_comm (m : Keyed step) (s : κ → τ) {i j : ι} (apart : m.key i ≠ m.key j) :
    (step (step s i).2 j).1 = (step s j).1 ∧ (step (step s j).2 i).1 = (step s i).1 ∧
      (step (step s i).2 j).2 = (step (step s j).2 i).2 := by
  have kept : (step s i).2 (m.key j) = s (m.key j) := m.elsewhere s apart
  have kept' : (step s j).2 (m.key i) = s (m.key i) := m.elsewhere s apart.symm
  refine ⟨m.reply_congr kept, m.reply_congr kept', ?_⟩
  rw [m.state_eq (step s i).2, m.state_eq (step s j).2, kept, kept', m.state_eq s i,
    m.state_eq s j]
  exact Function.update_comm apart ..

/-- Two neighbours of different keys change places in a run, with their replies,
and nothing else changes. -/
theorem run_swap (m : Keyed step) (s : κ → τ) (pre : List ι) {i j : ι} (post : List ι)
    (apart : m.key i ≠ m.key j) :
    (∃ r r' before after, before.length = pre.length ∧
      replies step s (pre ++ i :: j :: post) = before ++ r :: r' :: after ∧
      replies step s (pre ++ j :: i :: post) = before ++ r' :: r :: after) ∧
      final step s (pre ++ i :: j :: post) = final step s (pre ++ j :: i :: post) := by
  obtain ⟨hj, hi, hstate⟩ := m.step_comm (final step s pre) apart
  constructor
  · refine ⟨(step (final step s pre) i).1, (step (final step s pre) j).1, replies step s pre,
      replies step (step (step (final step s pre) i).2 j).2 post, ?_, ?_, ?_⟩
    · rw [replies, List.length_map, trace_length]
    · rw [replies, trace_append, List.map_append, ← hj]
      rfl
    · rw [replies, trace_append, List.map_append, hstate, ← hi]
      rfl
  · rw [final_append, final_append]
    change final step (step (step (final step s pre) i).2 j).2 post = _
    rw [hstate]
    rfl

end Keyed

end KeyedMachine
