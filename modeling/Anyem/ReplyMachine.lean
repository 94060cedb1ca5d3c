import Mathlib.Data.List.Induction

/-!
# Deterministic machines that answer every input

A machine is a function from a state and an input to a reply and the next
state. A run from `s` on a list of inputs has a last state and a trace of what
was asked, answered and changed. The rules carry one-step facts to whole runs:
invariants of the state, invariants of the history and the state together,
deletion of inputs that change nothing, and simulation by a smaller machine.
-/

namespace ReplyMachine

universe u v w

variable {σ : Type u} {ι : Type v} {ο : Type w}

/-- One served input, with the states around it. -/
structure Event (σ : Type u) (ι : Type v) (ο : Type w) where
  before : σ
  input : ι
  reply : ο
  after : σ

/-- The event of serving `i` in state `s`. -/
def event (step : σ → ι → ο × σ) (s : σ) (i : ι) : Event σ ι ο :=
  ⟨s, i, (step s i).1, (step s i).2⟩

def final (step : σ → ι → ο × σ) : σ → List ι → σ
  | s, [] => s
  | s, i :: is => final step (step s i).2 is

def trace (step : σ → ι → ο × σ) : σ → List ι → List (Event σ ι ο)
  | _, [] => []
  | s, i :: is => event step s i :: trace step (step s i).2 is

/-- The replies of a run, in the order of its inputs. -/
def replies (step : σ → ι → ο × σ) (s : σ) (is : List ι) : List ο :=
  (trace step s is).map Event.reply

variable (step : σ → ι → ο × σ)

theorem final_append (s : σ) (is js : List ι) :
    final step s (is ++ js) = final step (final step s is) js := by
  induction is generalizing s with
  | nil => rfl
  | cons i is ih => exact ih (step s i).2

theorem trace_append (s : σ) (is js : List ι) :
    trace step s (is ++ js) = trace step s is ++ trace step (final step s is) js := by
  induction is generalizing s with
  | nil => rfl
  | cons i is ih => simp only [List.cons_append, trace, final, ih]

theorem final_snoc (s : σ) (is : List ι) (i : ι) :
    final step s (is ++ [i]) = (step (final step s is) i).2 := by
  rw [final_append]
  rfl

theorem trace_snoc (s : σ) (is : List ι) (i : ι) :
    trace step s (is ++ [i]) = trace step s is ++ [event step (final step s is) i] := by
  rw [trace_append]
  rfl

theorem trace_length (s : σ) (is : List ι) : (trace step s is).length = is.length := by
  induction is generalizing s with
  | nil => rfl
  | cons i is ih => exact congrArg (· + 1) (ih (step s i).2)

/-- Cutting a trace at an event cuts the inputs at the same place. -/
theorem trace_split {s : σ} {is : List ι} {pre post : List (Event σ ι ο)} {e : Event σ ι ο}
    (split : trace step s is = pre ++ e :: post) :
    ∃ is₁ is₂, is = is₁ ++ e.input :: is₂ ∧ pre = trace step s is₁ ∧
      e = event step (final step s is₁) e.input ∧ post = trace step e.after is₂ := by
  induction is generalizing s pre with
  | nil => cases pre <;> cases split
  | cons i is ih =>
    cases pre with
    | nil =>
      simp only [trace, List.nil_append, List.cons.injEq] at split
      obtain ⟨rfl, rfl⟩ := split
      exact ⟨[], is, rfl, rfl, rfl, rfl⟩
    | cons p pre =>
      simp only [trace, List.cons_append, List.cons.injEq] at split
      obtain ⟨rfl, split⟩ := split
      obtain ⟨is₁, is₂, his, hpre, he, hpost⟩ := ih split
      exact ⟨i :: is₁, is₂, by rw [his]; rfl, by rw [hpre]; rfl, he, hpost⟩

theorem mem_trace {s : σ} {is : List ι} {e : Event σ ι ο} (member : e ∈ trace step s is) :
    ∃ is₁ is₂, is = is₁ ++ e.input :: is₂ ∧ e = event step (final step s is₁) e.input := by
  obtain ⟨pre, post, split⟩ := List.append_of_mem member
  obtain ⟨is₁, is₂, his, _, he, _⟩ := trace_split step split
  exact ⟨is₁, is₂, his, he⟩

/-- An invariant that relates the history so far to the state reached. -/
theorem history_invariant (P : List (Event σ ι ο) → σ → Prop) (s : σ) (start : P [] s)
    (extended : ∀ h t i, P h t → P (h ++ [event step t i]) (step t i).2) (is : List ι) :
    P (trace step s is) (final step s is) := by
  induction is using List.reverseRecOn with
  | nil => exact start
  | append_singleton is i ih =>
    rw [trace_snoc, final_snoc]
    exact extended _ _ i ih

section Histories

variable {α : Type*}

/-- Each element of a list is allowed by what stands immediately before it. -/
def EachAfter (R : Option α → α → Prop) (l : List α) : Prop :=
  ∀ pre a post, l = pre ++ a :: post → R pre.getLast? a

theorem split_snoc {l pre post : List α} {a b : α} (split : l ++ [b] = pre ++ a :: post) :
    (pre = l ∧ a = b ∧ post = []) ∨ ∃ post', post = post' ++ [b] ∧ l = pre ++ a :: post' := by
  rcases List.eq_nil_or_concat post with rfl | ⟨post', c, rfl⟩
  · have h := List.append_inj' split rfl
    exact Or.inl ⟨h.1.symm, (List.singleton_inj.mp h.2).symm, rfl⟩
  · have h : l ++ [b] = (pre ++ a :: post') ++ [c] := by simpa using split
    obtain ⟨hl, hb⟩ := List.append_inj' h rfl
    exact Or.inr ⟨post', by rw [List.concat_eq_append, hb], hl⟩

theorem eachAfter_nil (R : Option α → α → Prop) : EachAfter R [] := by
  intro pre a post split
  cases pre <;> cases split

theorem eachAfter_snoc {R : Option α → α → Prop} {l : List α} {b : α}
    (each : EachAfter R l) (last : R l.getLast? b) : EachAfter R (l ++ [b]) := by
  intro pre a post split
  rcases split_snoc split with ⟨rfl, rfl, -⟩ | ⟨post', -, hl⟩
  · exact last
  · exact each pre a post' hl

theorem eachAfter_of_map {β : Type*} {R : Option β → β → Prop} {f : α → β} {l : List α}
    (each : EachAfter R (l.map f)) : EachAfter (fun last a => R (last.map f) (f a)) l := by
  intro pre a post split
  have mapped := each (pre.map f) (f a) (post.map f) (by rw [split, List.map_append]; rfl)
  rwa [List.getLast?_map] at mapped

/-- An element found in an image comes from one in the list. -/
theorem map_split {β : Type*} {f : α → β} {l : List α} {pre post : List β} {b : β}
    (split : l.map f = pre ++ b :: post) :
    ∃ pre' a post', l = pre' ++ a :: post' ∧ pre'.map f = pre ∧ f a = b ∧
      post'.map f = post := by
  obtain ⟨pre', rest, rfl, hpre, hrest⟩ := List.map_eq_append_iff.mp split
  obtain ⟨a, post', rfl, ha, hpost⟩ := List.map_eq_cons_iff.mp hrest
  exact ⟨pre', a, post', rfl, hpre, ha, hpost⟩

/-- The last element of a kind can be found again after one more element that
is not of that kind, and nothing else can. -/
theorem exists_last_snoc {p q : α → Prop} {l : List α} {b : α} (other : ¬ p b) (kept : q b) :
    (∃ pre a mid, l ++ [b] = pre ++ a :: mid ∧ p a ∧ ∀ x ∈ mid, q x) ↔
      ∃ pre a mid, l = pre ++ a :: mid ∧ p a ∧ ∀ x ∈ mid, q x := by
  constructor
  · rintro ⟨pre, a, mid, split, ha, hmid⟩
    rcases split_snoc split with ⟨-, rfl, -⟩ | ⟨mid', rfl, hl⟩
    · exact False.elim (other ha)
    · exact ⟨pre, a, mid', hl, ha, fun x hx => hmid x (List.mem_append_left _ hx)⟩
  · rintro ⟨pre, a, mid, rfl, ha, hmid⟩
    refine ⟨pre, a, mid ++ [b], by simp, ha, ?_⟩
    intro x hx
    rcases List.mem_append.mp hx with hx | hx
    · exact hmid x hx
    · exact List.mem_singleton.mp hx ▸ kept

end Histories

section Erasure

/-- Keep the elements whose mark is `true`. -/
def select {α : Type*} : List Bool → List α → List α
  | true :: marks, a :: as => a :: select marks as
  | false :: marks, _ :: as => select marks as
  | _, _ => []

/-- Inputs whose events change nothing can be left out of a run: the events of
the other inputs, their replies among them, and the last state stay as they are. -/
theorem erase_silent (marks : List Bool) (s : σ) (is : List ι)
    (enough : marks.length = is.length)
    (silent : ∀ p ∈ marks.zip (trace step s is), p.1 = false → p.2.after = p.2.before) :
    trace step s (select marks is) = select marks (trace step s is) ∧
      final step s (select marks is) = final step s is := by
  induction marks generalizing s is with
  | nil =>
    cases is with
    | nil => exact ⟨rfl, rfl⟩
    | cons i is => cases enough
  | cons mark marks ih =>
    cases is with
    | nil => cases enough
    | cons i is =>
      have rest : ∀ p ∈ marks.zip (trace step (step s i).2 is),
          p.1 = false → p.2.after = p.2.before :=
        fun p hp => silent p (List.mem_cons_of_mem _ hp)
      obtain ⟨htrace, hfinal⟩ := ih (step s i).2 is (Nat.succ.inj enough) rest
      cases mark with
      | true => exact ⟨by simp only [select, trace, htrace], by simp only [select, final, hfinal]⟩
      | false =>
        have same : (step s i).2 = s := silent (false, event step s i) List.mem_cons_self rfl
        rw [same] at htrace hfinal
        simp only [select, trace, final, same]
        exact ⟨htrace, hfinal⟩

theorem select_map {α β : Type*} (f : α → β) (marks : List Bool) (as : List α) :
    select marks (as.map f) = (select marks as).map f := by
  induction marks generalizing as with
  | nil => cases as <;> rfl
  | cons mark marks ih =>
    cases as with
    | nil => cases mark <;> rfl
    | cons a as => cases mark <;> simp only [List.map_cons, select, ih]

end Erasure

section Simulation

universe u' v' w'

variable {σ' : Type u'} {ι' : Type v'} {ο' : Type w'}

/-- A second machine follows the first one through `abs`. Inputs that `inp`
drops leave the abstract state alone; the others are steps of the second
machine with the reply that `out` reads off the first one's. -/
structure Simulation (step : σ → ι → ο × σ) (step' : σ' → ι' → ο' × σ') where
  abs : σ → σ'
  inp : ι → Option ι'
  out : ι → ο → ο'
  quiet : ∀ s i, inp i = none → abs (step s i).2 = abs s
  follows : ∀ s i j, inp i = some j →
    step' (abs s) j = (out i (step s i).1, abs (step s i).2)

variable {step} {step' : σ' → ι' → ο' × σ'}

namespace Simulation

/-- The event of the second machine that a kept event is seen as. -/
def see (R : Simulation step step') (e : Event σ ι ο) : Option (Event σ' ι' ο') :=
  (R.inp e.input).map fun j => ⟨R.abs e.before, j, R.out e.input e.reply, R.abs e.after⟩

theorem final_eq (R : Simulation step step') (s : σ) (is : List ι) :
    R.abs (final step s is) = final step' (R.abs s) (is.filterMap R.inp) := by
  induction is generalizing s with
  | nil => rfl
  | cons i is ih =>
    rw [final, ih]
    cases hi : R.inp i with
    | none => rw [List.filterMap_cons_none hi, R.quiet s i hi]
    | some j => rw [List.filterMap_cons_some hi, final, R.follows s i j hi]

theorem trace_eq (R : Simulation step step') (s : σ) (is : List ι) :
    (trace step s is).filterMap R.see = trace step' (R.abs s) (is.filterMap R.inp) := by
  induction is generalizing s with
  | nil => rfl
  | cons i is ih =>
    cases hi : R.inp i with
    | none =>
      have hsee : R.see (event step s i) = none := by simp only [see, event, hi, Option.map_none]
      rw [trace, List.filterMap_cons_none hsee, List.filterMap_cons_none hi, ih, R.quiet s i hi]
    | some j =>
      have hstep := R.follows s i j hi
      have hsee : R.see (event step s i) = some (event step' (R.abs s) j) := by
        simp only [see, event, hi, Option.map_some, hstep]
      rw [trace, List.filterMap_cons_some hsee, List.filterMap_cons_some hi, trace, ih, hstep]

/-- When no input is dropped the replies follow one for one. -/
theorem replies_eq (R : Simulation step step') {f : ι → ι'} {g : ο → ο'}
    (kept : ∀ i, R.inp i = some (f i)) (seen : ∀ i o, R.out i o = g o) (s : σ) (is : List ι) :
    (replies step s is).map g = replies step' (R.abs s) (is.map f) := by
  induction is generalizing s with
  | nil => rfl
  | cons i is ih =>
    have now := R.follows s i (f i) (kept i)
    have later := ih (step s i).2
    rw [seen] at now
    simp only [replies, trace, event, List.map_cons, now] at later ⊢
    rw [later]

end Simulation

end Simulation

end ReplyMachine
