import Mathlib.Data.List.Flatten
import Mathlib.Data.Nat.Notation

/-!
# One write and one read on a stream

A stream keeps the order of the letters and loses none, but it does not keep
the borders of messages. A write takes a front part of the message, and what it
took arrives in segments. One read gets the first segment at most, so it gets
the message exactly when nothing was left out and nothing was cut.
-/

namespace ByteStream

universe u
variable {α : Type u}

/-- What the stream does with a message between one write and one read. -/
structure Passage (message : List α) where
  accepted : ℕ
  accepted_le : accepted ≤ message.length
  segments : List (List α)
  filled : ∀ s ∈ segments, s ≠ []
  inOrder : segments.flatten = message.take accepted

namespace Passage

variable {message : List α}

/-- One read, with the number of letters that it asks for. -/
def read (limit : ℕ) (p : Passage message) : List α := (p.segments.headD []).take limit

/-- The write took the whole message, and it arrives in one piece. -/
def Whole (p : Passage message) : Prop :=
  p.accepted = message.length ∧ p.segments.length ≤ 1

/-- One read gets a front part of the message. -/
theorem read_front (p : Passage message) (limit : ℕ) : p.read limit <+: message := by
  have taken : p.segments.flatten <+: message := p.inOrder ▸ List.take_prefix _ _
  rw [read]
  refine (List.take_prefix limit _).trans ?_
  cases arrived : p.segments with
  | nil => exact List.nil_prefix
  | cons s rest =>
    rw [arrived, List.flatten_cons] at taken
    exact (List.prefix_append s _).trans taken

theorem read_nil {p : Passage message} {limit : ℕ} (silent : p.segments = []) :
    p.read limit = message ↔ p.accepted = message.length := by
  have taken := p.inOrder
  rw [silent, List.flatten_nil] at taken
  rw [read, silent, List.headD_nil, List.take_nil]
  constructor
  · intro empty
    have within := p.accepted_le
    have none := congrArg List.length empty
    rw [List.length_nil] at none
    omega
  · intro all
    rw [taken, all, List.take_length]

theorem read_cons {p : Passage message} {limit : ℕ} (short : message.length ≤ limit)
    {s : List α} {rest : List (List α)} (arrived : p.segments = s :: rest) :
    p.read limit = message ↔ p.accepted = message.length ∧ rest = [] := by
  have within := p.accepted_le
  have taken := p.inOrder
  rw [arrived, List.flatten_cons] at taken
  have lengths := congrArg List.length taken
  rw [List.length_append, List.length_take] at lengths
  have front : p.read limit = s := by
    rw [read, arrived, List.headD_cons]
    exact List.take_of_length_le (by omega)
  rw [front]
  constructor
  · intro same
    subst same
    refine ⟨by omega, ?_⟩
    cases rest with
    | nil => rfl
    | cons t rest =>
      have some := p.filled t (by simp [arrived])
      have positive := List.length_pos_iff.mpr some
      rw [List.flatten_cons, List.length_append] at lengths
      omega
  · rintro ⟨all, last⟩
    rw [last, List.flatten_nil, List.append_nil, all, List.take_length] at taken
    exact taken

/-- One read gets the message exactly when it was taken whole and not cut. -/
theorem read_eq_iff {limit : ℕ} (short : message.length ≤ limit) (p : Passage message) :
    p.read limit = message ↔ p.Whole := by
  rw [Whole]
  cases arrived : p.segments with
  | nil => simp [read_nil arrived]
  | cons s rest => simp [read_cons short arrived]

end Passage

end ByteStream
