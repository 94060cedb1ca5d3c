import Mathlib.Data.List.Basic
import Mathlib.Logic.Function.Basic

/-!
# Calls that take effect at one moment

The calls of several clients on one object overlap. They are linearizable when
every call takes effect at one moment between its start and its return, so that
the effects, one after the other, are a sequential run of the object. A system
is so when every step of it is followed by effects of the object, and then no
program of the clients can tell it from the object.
-/

namespace AtomicObjects

variable {C I O σ S : Type}

/-- What is seen of a call. -/
inductive Event (I O : Type) where
  | invoke (i : I)
  | respond (o : O)

/-- What happens in a call: its effect is not seen. -/
inductive Act (I O : Type) where
  | invoke (i : I)
  | effect (i : I) (o : O)
  | respond (o : O)

def Act.event : Act I O → Option (Event I O)
  | .invoke i => some (.invoke i)
  | .effect _ _ => none
  | .respond o => some (.respond o)

def Act.operation : Act I O → Option (I × O)
  | .invoke _ => none
  | .effect i o => some (i, o)
  | .respond _ => none

/-- Where a client stands in its call. -/
inductive Stage (I O : Type) where
  | idle
  | invoked (i : I)
  | done (o : O)

/-- The acts of one client: call after call, each with its effect between its
start and its return, and the last one perhaps under way. -/
inductive Orderly : List (Act I O) → Stage I O → Prop where
  | start : Orderly [] .idle
  | invoke {acts : List (Act I O)} (i : I) (before : Orderly acts .idle) :
      Orderly (acts ++ [.invoke i]) (.invoked i)
  | effect {acts : List (Act I O)} {i : I} (o : O) (before : Orderly acts (.invoked i)) :
      Orderly (acts ++ [.effect i o]) (.done o)
  | respond {acts : List (Act I O)} {o : O} (before : Orderly acts (.done o)) :
      Orderly (acts ++ [.respond o]) .idle

/-- Operations one after the other, from the value `v`. -/
inductive Sequential (spec : σ → C → I → O → σ → Prop) (v : σ) : List (C × I × O) → σ → Prop where
  | start : Sequential spec v [] v
  | next {ops : List (C × I × O)} {w w' : σ} {c : C} {i : I} {o : O}
      (before : Sequential spec v ops w) (now : spec w c i o w') :
      Sequential spec v (ops ++ [(c, i, o)]) w'

/-- Keep what is seen. -/
def history (acts : List (C × Act I O)) : List (C × Event I O) :=
  acts.filterMap fun a => a.2.event.map fun e => (a.1, e)

/-- Keep the effects. -/
def operations (acts : List (C × Act I O)) : List (C × I × O) :=
  acts.filterMap fun a => a.2.operation.map fun op => (a.1, op)

variable [DecidableEq C]

/-- What one client does. -/
def own (c : C) (acts : List (C × Act I O)) : List (Act I O) :=
  acts.filterMap fun a => if a.1 = c then some a.2 else none

/-- Effects can be put into the history so that every client is orderly and the
effects are a sequential run; where the clients stand, and the value then. -/
def Linearized (spec : σ → C → I → O → σ → Prop) (v : σ) (h : List (C × Event I O))
    (stage : C → Stage I O) (w : σ) : Prop :=
  ∃ acts, history acts = h ∧ (∀ c, Orderly (own c acts) (stage c)) ∧
    Sequential spec v (operations acts) w

def Linearizable (spec : σ → C → I → O → σ → Prop) (v : σ) (h : List (C × Event I O)) : Prop :=
  ∃ stage w, Linearized spec v h stage w

section Rules

variable {spec : σ → C → I → O → σ → Prop} {v w w' : σ} {h : List (C × Event I O)}
  {stage : C → Stage I O} {c : C} {i : I} {o : O}

theorem orderly_snoc {acts : List (C × Act I O)} {act : Act I O} {next : Stage I O}
    (orderly : ∀ c, Orderly (own c acts) (stage c))
    (here : Orderly (own c acts ++ [act]) next) (c' : C) :
    Orderly (own c' (acts ++ [(c, act)])) (Function.update stage c next c') := by
  by_cases same : c' = c
  · subst same
    rw [Function.update_self]
    simpa [own] using here
  · rw [Function.update_of_ne same]
    have other : ¬ c = c' := fun eq => same eq.symm
    simpa [own, other] using orderly c'

theorem Linearized.start : Linearized spec v [] (fun _ => .idle) v :=
  ⟨[], rfl, fun _ => .start, .start⟩

theorem Linearized.invoke (linearized : Linearized spec v h stage w) (idle : stage c = .idle) :
    Linearized spec v (h ++ [(c, .invoke i)]) (Function.update stage c (.invoked i)) w := by
  obtain ⟨acts, rfl, orderly, ran⟩ := linearized
  refine ⟨acts ++ [(c, .invoke i)], by simp [history, Act.event], orderly_snoc orderly ?_, ?_⟩
  · exact .invoke i (idle ▸ orderly c)
  · simpa [operations, Act.operation] using ran

theorem Linearized.effect (linearized : Linearized spec v h stage w)
    (invoked : stage c = .invoked i) (now : spec w c i o w') :
    Linearized spec v h (Function.update stage c (.done o)) w' := by
  obtain ⟨acts, rfl, orderly, ran⟩ := linearized
  refine ⟨acts ++ [(c, .effect i o)], by simp [history, Act.event], orderly_snoc orderly ?_, ?_⟩
  · exact .effect o (invoked ▸ orderly c)
  · simpa [operations, Act.operation] using ran.next now

theorem Linearized.respond (linearized : Linearized spec v h stage w) (done : stage c = .done o) :
    Linearized spec v (h ++ [(c, .respond o)]) (Function.update stage c .idle) w := by
  obtain ⟨acts, rfl, orderly, ran⟩ := linearized
  refine ⟨acts ++ [(c, .respond o)], by simp [history, Act.event], orderly_snoc orderly ?_, ?_⟩
  · exact .respond (done ▸ orderly c)
  · simpa [operations, Act.operation] using ran

end Rules

section Simulation

/-- What the object can do while one event, or none, is seen. -/
inductive Follows (spec : σ → C → I → O → σ → Prop) (stage : C → Stage I O) (w : σ) :
    Option (C × Event I O) → (C → Stage I O) → σ → Prop where
  | stay : Follows spec stage w none stage w
  | invoke {c : C} (i : I) (idle : stage c = .idle) :
      Follows spec stage w (some (c, .invoke i)) (Function.update stage c (.invoked i)) w
  | effect {c : C} {i : I} {o : O} {w' : σ} (invoked : stage c = .invoked i)
      (now : spec w c i o w') :
      Follows spec stage w none (Function.update stage c (.done o)) w'
  | respond {c : C} {o : O} (done : stage c = .done o) :
      Follows spec stage w (some (c, .respond o)) (Function.update stage c .idle) w
  | effectRespond {c : C} {i : I} {o : O} {w' : σ} (invoked : stage c = .invoked i)
      (now : spec w c i o w') :
      Follows spec stage w (some (c, .respond o)) (Function.update stage c .idle) w'

/-- A run of a system with the events that are seen. -/
inductive Run (step : S → Option (C × Event I O) → S → Prop) (s₀ : S) :
    List (C × Event I O) → S → Prop where
  | start : Run step s₀ [] s₀
  | next {h : List (C × Event I O)} {s s' : S} {seen : Option (C × Event I O)}
      (before : Run step s₀ h s) (now : step s seen s') : Run step s₀ (h ++ seen.toList) s'

variable {spec : σ → C → I → O → σ → Prop} {v w w' : σ} {h : List (C × Event I O)}
  {stage stage' : C → Stage I O} {seen : Option (C × Event I O)}

theorem Linearized.follows (linearized : Linearized spec v h stage w)
    (follows : Follows spec stage w seen stage' w') :
    Linearized spec v (h ++ seen.toList) stage' w' := by
  cases follows with
  | stay =>
    rw [Option.toList_none, List.append_nil]
    exact linearized
  | invoke i idle => exact linearized.invoke idle
  | effect invoked now =>
    rw [Option.toList_none, List.append_nil]
    exact linearized.effect invoked now
  | respond done => exact linearized.respond done
  | @effectRespond c i o w' invoked now =>
    have returned := (linearized.effect invoked now).respond (c := c) (Function.update_self ..)
    rw [Function.update_idem] at returned
    exact returned

/-- A system whose steps are followed by the object has linearizable calls. -/
theorem linearizable_of_simulation {step : S → Option (C × Event I O) → S → Prop} {s₀ s : S}
    (represents : S → (C → Stage I O) → σ → Prop)
    (start : represents s₀ (fun _ => .idle) v)
    (follows : ∀ {s s' stage w seen}, represents s stage w → step s seen s' →
      ∃ stage' w', Follows spec stage w seen stage' w' ∧ represents s' stage' w')
    (run : Run step s₀ h s) : Linearizable spec v h := by
  suffices ∃ stage w, Linearized spec v h stage w ∧ represents s stage w by
    obtain ⟨stage, w, linearized, -⟩ := this
    exact ⟨stage, w, linearized⟩
  induction run with
  | start => exact ⟨_, v, .start, start⟩
  | next before now ih =>
    obtain ⟨stage, w, linearized, here⟩ := ih
    obtain ⟨stage', w', moves, there⟩ := follows here now
    exact ⟨stage', w', linearized.follows moves, there⟩

end Simulation

section Programs

variable {T : Type}

/-- How a client uses the object: the call it makes next, and where it goes on
when the call ends. -/
structure Program (T I O : Type) where
  next : T → Option I
  resume : T → O → T

/-- A step of a system whose clients run the program. -/
inductive Program.Step (program : Program T I O) (step : S → Option (C × Event I O) → S → Prop) :
    S × (C → T) → S × (C → T) → Prop where
  | silent {s s' : S} {threads : C → T} (now : step s none s') :
      Step program step (s, threads) (s', threads)
  | invoke {s s' : S} {threads : C → T} {c : C} {i : I}
      (asks : program.next (threads c) = some i) (now : step s (some (c, .invoke i)) s') :
      Step program step (s, threads) (s', threads)
  | respond {s s' : S} {threads : C → T} {c : C} {o : O}
      (now : step s (some (c, .respond o)) s') :
      Step program step (s, threads)
        (s', Function.update threads c (program.resume (threads c) o))

/-- The object itself as a system. -/
def objectStep (spec : σ → C → I → O → σ → Prop) (x : (C → Stage I O) × σ)
    (seen : Option (C × Event I O)) (y : (C → Stage I O) × σ) : Prop :=
  Follows spec x.1 x.2 seen y.1 y.2

variable {spec : σ → C → I → O → σ → Prop} {step : S → Option (C × Event I O) → S → Prop}
  {represents : S → (C → Stage I O) → σ → Prop}

/-- What the clients of the system do, those of the object do as well. -/
theorem Program.step_of_simulation {program : Program T I O}
    (follows : ∀ {s s' stage w seen}, represents s stage w → step s seen s' →
      ∃ stage' w', Follows spec stage w seen stage' w' ∧ represents s' stage' w')
    {x y : S × (C → T)} (moves : program.Step step x y) {stage : C → Stage I O} {w : σ}
    (here : represents x.1 stage w) :
    ∃ stage' w', program.Step (objectStep spec) ((stage, w), x.2) ((stage', w'), y.2) ∧
      represents y.1 stage' w' := by
  cases moves with
  | silent now =>
    obtain ⟨stage', w', after, there⟩ := follows here now
    exact ⟨stage', w', .silent after, there⟩
  | invoke asks now =>
    obtain ⟨stage', w', after, there⟩ := follows here now
    exact ⟨stage', w', .invoke asks after, there⟩
  | respond now =>
    obtain ⟨stage', w', after, there⟩ := follows here now
    exact ⟨stage', w', .respond after, there⟩

/-- What the start of a call, its effect and its end keep is kept by the clients
of the object. -/
theorem Program.keeps {program : Program T I O} {P : (C → Stage I O) → σ → (C → T) → Prop}
    (invokes : ∀ {stage w threads c i}, P stage w threads → stage c = .idle →
      program.next (threads c) = some i → P (Function.update stage c (.invoked i)) w threads)
    (effects : ∀ {stage w w' threads c i o}, P stage w threads → stage c = .invoked i →
      spec w c i o w' → P (Function.update stage c (.done o)) w' threads)
    (responds : ∀ {stage w threads c o}, P stage w threads → stage c = .done o →
      P (Function.update stage c .idle) w
        (Function.update threads c (program.resume (threads c) o)))
    {x y : ((C → Stage I O) × σ) × (C → T)} (here : P x.1.1 x.1.2 x.2)
    (moves : program.Step (objectStep spec) x y) : P y.1.1 y.1.2 y.2 := by
  cases moves with
  | @silent s s' threads now =>
    obtain ⟨stage', w'⟩ := s'
    change Follows spec s.1 s.2 none stage' w' at now
    cases now with
    | stay => exact here
    | effect invoked now => exact effects here invoked now
  | @invoke s s' threads c i asks now =>
    obtain ⟨stage', w'⟩ := s'
    change Follows spec s.1 s.2 (some (c, .invoke i)) stage' w' at now
    cases now with
    | invoke i idle => exact invokes here idle asks
  | @respond s s' threads c o now =>
    obtain ⟨stage', w'⟩ := s'
    change Follows spec s.1 s.2 (some (c, .respond o)) stage' w' at now
    cases now with
    | respond done => exact responds here done
    | effectRespond invoked now =>
      have ended := responds (c := c) (effects here invoked now) (Function.update_self ..)
      rw [Function.update_idem] at ended
      exact ended

end Programs

end AtomicObjects
