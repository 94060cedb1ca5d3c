import Anyem.IncrementThreads

/-!
# Main loops without retries

One program gets a variable and puts it back incremented, and ends with an error
when its `get` is refused, since there is no resource to ask for data then. The
other one reads the variable and prints the data, and ends with an error when
there is none. Any number of both run beside each other. A refused `get` leaves
nothing behind, so a program that it ends keeps nobody else out; and who reads
finds the increments in the order in which they were made.
-/

namespace MainLoops

open AtomicObjects ThrowingMethods Resource ResourceHolder ResourceManager PoolCells
  Reservations Client Finishing ConcurrentCalls SharedVariable IncrementThreads

variable {C δ : Type}

inductive Main where
  | increments
  | reads
  deriving DecidableEq

/-- The method that a turn of the loop starts with. The one that increments sets
`$a` to 0 for it. -/
def Main.call (test : Test δ) : Main → Call δ
  | .increments => .get (some test.zero)
  | .reads => .read

/-- A program that runs its loop `args` times, and the data that it printed. -/
structure Loop (δ : Type) where
  main : Main
  args : ℕ
  i : ℕ
  a : δ
  printed : List (Option δ)
  point : Point

namespace Loop

def start (test : Test δ) (main : Main) (args : ℕ) : Loop δ :=
  ⟨main, args, 0, test.zero, [], .loop⟩

def crash (loop : Loop δ) : Loop δ := { loop with point := .crashed }

def next (test : Test δ) (loop : Loop δ) : Option (Invocation δ) :=
  match loop.point with
  | .loop => if loop.i < loop.args then some ⟨loop.main.call test, none⟩ else none
  | .putting => some ⟨.put (some loop.a), none⟩
  | .crashed => none

/-- What a turn does with the resource that it was given. -/
def use (test : Test δ) (loop : Loop δ) (r : ResourceImpl (Option δ)) : Loop δ :=
  match loop.main with
  | .increments => { loop with a := test.increment r.data, point := .putting }
  | .reads => { loop with i := loop.i + 1, printed := loop.printed ++ [r.data] }

/-- Only the one that reads catches an `Exception`. -/
def catches (loop : Loop δ) : Throwable → Loop δ
  | .exception _ => match loop.main with
    | .increments => loop.crash
    | .reads => { loop with i := loop.i + 1 }
  | .memberCall _ => loop.crash

def resume (test : Test δ) (loop : Loop δ) (outcome : Outcome δ) : Loop δ :=
  match loop.point, outcome with
  | .loop, .returned response =>
    match response.resource with
    | some r => loop.use test r
    | none => loop.crash
  | .loop, .threw ex => loop.catches ex
  | .loop, .gaveUp => loop.crash
  | .putting, .returned _ => { loop with i := loop.i + 1, point := .loop }
  | .putting, _ => loop.crash
  | .crashed, _ => loop

end Loop

def run (test : Test δ) : Program (Loop δ) (Invocation δ) (Outcome δ) :=
  ⟨Loop.next test, Loop.resume test⟩

section Positions

/-- The programs as users of the variable: program `c` runs `main c`, `args c`
times. An error ends a program, so no turn is lost. -/
def loopKind (test : Test δ) (main : C → Main) (args : C → ℕ) : Kind C (Loop δ) δ where
  program := run test
  task := fun loop =>
    match loop.point, loop.main with
    | .loop, .increments => .gets
    | .loop, .reads => .reads
    | .putting, _ => .puts
    | .crashed, _ => .nothing
  maxAttempt := none
  initial := fun _ => test.zero
  a := Loop.a
  turns := fun loop =>
    match loop.main with
    | .increments => loop.i
    | .reads => 0
  lost := fun _ => 0
  printed := Loop.printed
  Rests := fun c loop => loop.main = main c ∧ loop.args = args c ∧
    match loop.point with
    | .loop => loop.i ≤ args c
    | .putting => loop.i < args c ∧ loop.main = .increments
    | .crashed => True
  Calls := fun c loop => loop.main = main c ∧ loop.args = args c ∧ loop.i < args c ∧
    match loop.point with
    | .loop => True
    | .putting => loop.main = .increments
    | .crashed => False

variable {test : Test δ} {main : C → Main} {args : C → ℕ} {c : C} {loop : Loop δ}

theorem loop_begins {i : Invocation δ} (rests : (loopKind test main args).Rests c loop)
    (asks : loop.next test = some i) :
    (loopKind test main args).invocation loop = some i ∧
      (loopKind test main args).Calls c loop := by
  obtain ⟨script, number, turn, a, printed, point⟩ := loop
  obtain ⟨same, count, rests⟩ := rests
  cases point with
  | crashed => cases asks
  | putting => exact ⟨asks, same, count, rests⟩
  | loop =>
    simp only [Loop.next] at asks
    split at asks
    · rename_i more
      refine ⟨?_, same, count, ?_, trivial⟩
      · cases script <;> exact asks
      · rw [← count]
        exact more
    · cases asks

theorem loop_resumes {o : Outcome δ} (calls : (loopKind test main args).Calls c loop)
    (ends : (loopKind test main args).Ends loop o) :
    (loopKind test main args).Resumed test c loop o (loop.resume test o) := by
  obtain ⟨script, number, turn, a, printed, point⟩ := loop
  obtain ⟨same, count, more, calls⟩ := calls
  cases point with
  | crashed => exact calls.elim
  | putting =>
    cases o with
    | gaveUp => exact False.elim ends
    | threw ex => exact False.elim ends
    | returned response =>
      obtain rfl : script = .increments := calls
      exact {
        rests := ⟨same, count, more⟩
        puts := by simp [loopKind, Loop.resume]
        computed := fun gets => by cases gets
        turned := rfl
        printed := rfl
        initial := fun _ => rfl }
  | loop =>
    cases script with
    | increments =>
      cases o with
      | gaveUp => exact False.elim (ends rfl)
      | threw ex => exact False.elim ends
      | returned response =>
        cases carried : response.resource with
        | none =>
          simp only [Loop.resume, carried]
          exact {
            rests := ⟨same, count, trivial⟩
            puts := by simp [loopKind, Loop.crash, given, carried]
            computed := fun _ r got => by cases carried.symm.trans got
            turned := rfl
            printed := rfl
            initial := fun _ => rfl }
        | some r =>
          simp only [Loop.resume, carried]
          exact {
            rests := ⟨same, count, more, rfl⟩
            puts := by simp [loopKind, Loop.use, given, carried]
            computed := fun _ r' got => by cases carried.symm.trans got; rfl
            turned := rfl
            printed := rfl
            initial := fun _ => rfl }
    | reads =>
      cases o with
      | gaveUp => exact False.elim ends
      | threw ex => exact False.elim ends
      | returned response =>
        cases carried : response.resource with
        | none =>
          simp only [Loop.resume, carried]
          exact {
            rests := ⟨same, count, trivial⟩
            puts := by simp [loopKind, Loop.crash]
            computed := fun gets => by cases gets
            turned := rfl
            printed := by simp [loopKind, Kind.shown, Loop.crash, given, carried]
            initial := fun _ => rfl }
        | some r =>
          simp only [Loop.resume, carried]
          exact {
            rests := ⟨same, count, more⟩
            puts := by simp [loopKind, Loop.use]
            computed := fun gets => by cases gets
            turned := rfl
            printed := by simp [loopKind, Kind.shown, Loop.use, given, carried]
            initial := fun _ => rfl }

theorem loop_laws : (loopKind test main args).Laws test where
  begins := loop_begins
  resumes := loop_resumes

theorem loop_starts (c : C) :
    (loopKind test main args).Starts test c (Loop.start test (main c) (args c)) where
  rests := ⟨rfl, rfl, Nat.zero_le _⟩
  outside := by
    simp only [loopKind, Loop.start]
    cases main c <;> exact fun puts => by cases puts
  turns := by
    simp only [loopKind, Loop.start]
    cases main c <;> rfl
  lost := rfl
  printed := rfl
  initial := rfl

/-- A program that has stopped without an error has made all its turns. -/
theorem stopped_turns (rests : (loopKind test main args).Rests c loop)
    (nothing : loop.next test = none) (going : loop.point ≠ .crashed) : loop.i = args c := by
  obtain ⟨script, number, turn, a, printed, point⟩ := loop
  obtain ⟨same, count, rests⟩ := rests
  cases point with
  | crashed => exact False.elim (going rfl)
  | putting => cases nothing
  | loop =>
    simp only [Loop.next] at nothing
    split at nothing
    · cases nothing
    · have atMost : turn ≤ args c := rests
      have number_eq : number = args c := count
      change turn = args c
      omega

theorem stopped_outside (nothing : loop.next test = none) :
    ¬ (loopKind test main args).Inside loop .idle := by
  obtain ⟨script, number, turn, a, printed, point⟩ := loop
  cases point with
  | crashed => exact fun puts => by cases puts
  | putting => cases nothing
  | loop => cases script <;> exact fun puts => by cases puts

end Positions

section Runs

variable [Fintype C] [DecidableEq C] (test : Test δ)

/-- New programs, with clients of their own. -/
def startLoops (pool : Pool (Option δ)) (main : C → Main) (args : C → ℕ) :
    System C δ × (C → Loop δ) :=
  (atRest pool fun _ => test.identifier, fun c => Loop.start test (main c) (args c))

variable {test} {uniqid : ℕ → Bytes} {x : System C δ × (C → Loop δ)} {main : C → Main}
  {args : C → ℕ} {pool : Pool (Option δ)}

theorem loops_run (ran : Relation.ReflTransGen ((run test).Step (Labelled uniqid))
    (startLoops test pool main args) x) :
    Tracks uniqid (Shared (loopKind test main args) test pool) x :=
  shared_run loop_laws loop_starts ran

/-- The program is in no call and starts no other one. -/
def Stopped (test : Test δ) (x : System C δ × (C → Loop δ)) (c : C) : Prop :=
  x.1.control c = .idle ∧ (x.2 c).next test = none

end Runs

end MainLoops
