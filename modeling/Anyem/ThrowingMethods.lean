import Mathlib.Logic.Function.Basic

/-!
# Methods that mutate and may throw

A method body is a program over the object it mutates. It returns or throws,
and what it wrote before a throw stays written: `EStateM` keeps the state on
both exits, so a body that writes first and checks later is visible as such.
The equations below run a body step by step from a given object.
-/

namespace ThrowingMethods

variable {ε σ τ α β : Type}

/-- A body with result `α` on an object `σ`, throwing exceptions of type `ε`. -/
abbrev Method (ε σ α : Type) := EStateM ε σ α

@[simp] theorem pure_run (a : α) (s : σ) : (pure a : Method ε σ α) s = .ok a s := rfl

@[simp] theorem get_run (s : σ) : (get : Method ε σ σ) s = .ok s s := rfl

@[simp] theorem modify_run (f : σ → σ) (s : σ) :
    (modify f : Method ε σ PUnit) s = .ok ⟨⟩ (f s) := rfl

@[simp] theorem throw_run (e : ε) (s : σ) : (throw e : Method ε σ α) s = .error e s := rfl

theorem bind_run (m : Method ε σ α) (f : α → Method ε σ β) (s : σ) :
    (m >>= f) s = match m s with
      | .ok a s' => f a s'
      | .error e s' => .error e s' := rfl

theorem bind_ok {m : Method ε σ α} {s s' : σ} {a : α} (ran : m s = .ok a s')
    (f : α → Method ε σ β) : (m >>= f) s = f a s' := by
  rw [bind_run, ran]

theorem bind_error {m : Method ε σ α} {s s' : σ} {e : ε} (threw : m s = .error e s')
    (f : α → Method ε σ β) : (m >>= f) s = .error e s' := by
  rw [bind_run, threw]

/-- A sequence that returned went through its first part. -/
theorem of_bind_ok {m : Method ε σ α} {f : α → Method ε σ β} {s s' : σ} {b : β}
    (ran : (m >>= f) s = .ok b s') : ∃ a s₁, m s = .ok a s₁ ∧ f a s₁ = .ok b s' := by
  cases first : m s with
  | ok a s₁ =>
    rw [bind_ok first] at ran
    exact ⟨a, s₁, rfl, ran⟩
  | error e s₁ =>
    rw [bind_error first] at ran
    cases ran

theorem tryCatch_run (m : Method ε σ α) (handle : ε → Method ε σ α) (s : σ) :
    (tryCatch m handle : Method ε σ α) s = match m s with
      | .ok a s' => .ok a s'
      | .error e s' => handle e s' := by
  change EStateM.tryCatch m handle s = _
  delta EStateM.tryCatch
  cases m s <;> rfl

/-- Run a body on an object that is one part of a larger state. With no object
in that part the call itself fails with `missing`. -/
def onPart (part : σ → Option τ) (store : τ → σ → σ) (missing : ε)
    (m : Method ε τ α) : Method ε σ α := fun s =>
  match part s with
  | none => .error missing s
  | some o => match m o with
    | .ok a o' => .ok a (store o' s)
    | .error e o' => .error e (store o' s)

theorem onPart_none (part : σ → Option τ) {s : σ} (absent : part s = none)
    (store : τ → σ → σ) (missing : ε) (m : Method ε τ α) :
    onPart part store missing m s = .error missing s := by
  rw [onPart, absent]

theorem onPart_ok (part : σ → Option τ) {s : σ} {o o' : τ} (present : part s = some o)
    (store : τ → σ → σ) (missing : ε) {m : Method ε τ α} {a : α} (ran : m o = .ok a o') :
    onPart part store missing m s = .ok a (store o' s) := by
  simp only [onPart, present, ran]

theorem onPart_error (part : σ → Option τ) {s : σ} {o o' : τ} (present : part s = some o)
    (store : τ → σ → σ) (missing : ε) {m : Method ε τ α} {e : ε} (threw : m o = .error e o') :
    onPart part store missing m s = .error e (store o' s) := by
  simp only [onPart, present, threw]

end ThrowingMethods
