import Anyem.SharedVariable

/-!
# Threads that increment one variable

Every thread goes through its loop: `get` with retries, and on success `put` of
what it got, incremented; on an `Exception` of `get` it prints the message and
goes on. As the calls are linearizable it is enough to follow single attempts.
The data at the end are those at the start incremented once for every turn of a
loop, less one for every message.
-/

namespace IncrementThreads

open AtomicObjects ThrowingMethods Resource ResourceHolder ResourceManager PoolCells
  Client Finishing ConcurrentCalls SharedVariable

variable {C δ : Type}

/-- Where a thread stands in its loop: at the head, between `get` and the end of
`put`, or ended by a throw that it does not catch. -/
inductive Point where
  | loop
  | putting
  | crashed
  deriving DecidableEq

/-- The variables of a thread, and how many messages it printed. -/
structure Thread (δ : Type) where
  i : ℕ
  a : δ
  printed : ℕ
  point : Point

namespace Thread

def start (test : Test δ) : Thread δ := ⟨0, test.zero, 0, .loop⟩

def caught (thread : Thread δ) : Thread δ :=
  { thread with i := thread.i + 1, printed := thread.printed + 1 }

def crash (thread : Thread δ) : Thread δ := { thread with point := .crashed }

/-- The next call of the thread. -/
def next (test : Test δ) (thread : Thread δ) : Option (Invocation δ) :=
  match thread.point with
  | .loop =>
    if thread.i < test.totalIteration then some ⟨.get (some thread.a), some test.maxAttempt⟩
    else none
  | .putting => some ⟨.put (some thread.a), none⟩
  | .crashed => none

/-- How the thread goes on. `getData` fails when there is no resource. -/
def resume (test : Test δ) (thread : Thread δ) (outcome : Outcome δ) : Thread δ :=
  match thread.point, outcome with
  | .loop, .returned response =>
    match response.resource with
    | some r => { thread with a := test.increment r.data, point := .putting }
    | none => thread.crash
  | .loop, .gaveUp => thread.caught
  | .loop, .threw (.exception _) => thread.caught
  | .loop, .threw (.memberCall _) => thread.crash
  | .putting, .returned _ => { thread with i := thread.i + 1, point := .loop }
  | .putting, _ => thread.crash
  | .crashed, _ => thread

end Thread

/-- What a thread runs. -/
def run (test : Test δ) : Program (Thread δ) (Invocation δ) (Outcome δ) :=
  ⟨Thread.next test, Thread.resume test⟩

/-- What a thread that only reads the variable finds: 0 without a resource. -/
def readValue (test : Test δ) (uniqid : Bytes) (now : Clock) (pool : Pool (Option δ)) :
    Option δ :=
  match ClientImpl.read uniqid ⟨test.identifier, none⟩ with
  | .error _ _ => none
  | .ok wrapper _ => match manageWrapper (some wrapper) now pool with
    | .error _ _ => none
    | .ok response _ => match response.resource with
      | some r => r.data
      | none => some test.zero

section Values

variable (test : Test δ)

theorem readValue_eq (uniqid : Bytes) (now : Clock) (pool : Pool (Option δ)) :
    readValue test uniqid now pool = valueAt test pool := by
  let q : Request (Option δ) := Request.build IResourceHolder.read test.identifier uniqid none now
  have ran : ClientImpl.read uniqid (⟨test.identifier, none⟩ : ClientImpl δ) =
    .ok ⟨some q.resource, q.action⟩ ⟨test.identifier, some q.resource⟩ := rfl
  have served : manageWrapper (some ⟨some q.resource, q.action⟩) now pool =
    .ok (serve pool q).1 (serve pool q).2 := manageWrapper_serve pool q
  have here : pool q.key = pool (key test) := rfl
  rw [readValue, ran]
  simp only [served]
  rw [serve_reply, outcome_read _ rfl, here, valueAt]
  cases pool (key test) <;> rfl

end Values

section Positions

variable (C) in
/-- The threads as programs that use the variable. A turn is lost when it ends
with a message. -/
def threadKind (test : Test δ) : Kind C (Thread δ) δ where
  program := run test
  task := fun thread =>
    match thread.point with
    | .loop => .gets
    | .putting => .puts
    | .crashed => .nothing
  maxAttempt := some test.maxAttempt
  initial := Thread.a
  a := Thread.a
  turns := Thread.i
  lost := Thread.printed
  printed := fun _ => []
  Rests := fun _ thread =>
    match thread.point with
    | .loop => thread.i ≤ test.totalIteration
    | .putting => thread.i < test.totalIteration
    | .crashed => False
  Calls := fun _ thread => thread.i < test.totalIteration ∧ thread.point ≠ .crashed

variable {test : Test δ}

theorem thread_begins {c : C} {thread : Thread δ} {i : Invocation δ}
    (rests : (threadKind C test).Rests c thread) (asks : thread.next test = some i) :
    (threadKind C test).invocation thread = some i ∧ (threadKind C test).Calls c thread := by
  obtain ⟨turn, a, printed, point⟩ := thread
  cases point with
  | crashed => cases asks
  | putting => exact ⟨asks, rests, Point.noConfusion⟩
  | loop =>
    simp only [Thread.next] at asks
    split at asks
    · rename_i more
      exact ⟨asks, more, Point.noConfusion⟩
    · cases asks

theorem thread_resumes {c : C} {thread : Thread δ} {o : Outcome δ}
    (calls : (threadKind C test).Calls c thread) (ends : (threadKind C test).Ends thread o) :
    (threadKind C test).Resumed test c thread o (thread.resume test o) := by
  obtain ⟨turn, a, printed, point⟩ := thread
  obtain ⟨more, going⟩ := calls
  cases point with
  | crashed => exact False.elim (going rfl)
  | putting =>
    cases o with
    | gaveUp => exact False.elim ends
    | threw ex => exact False.elim ends
    | returned response =>
      exact {
        rests := more
        puts := by simp [threadKind, Thread.resume]
        computed := fun gets => by cases gets
        turned := rfl
        printed := rfl
        initial := fun _ => rfl }
  | loop =>
    cases o with
    | threw ex => exact False.elim ends
    | gaveUp =>
      exact {
        rests := more
        puts := by simp [threadKind, Thread.resume, Thread.caught, given]
        computed := fun _ r got => by cases got
        turned := Nat.add_right_comm turn 1 printed
        printed := rfl
        initial := fun _ => rfl }
    | returned response =>
      cases carried : response.resource with
      | none => cases ends carried
      | some r =>
        have resumed : Thread.resume test ⟨turn, a, printed, .loop⟩ (.returned response) =
            ⟨turn, test.increment r.data, printed, .putting⟩ := by
          simp only [Thread.resume, carried]
        rw [resumed]
        exact {
          rests := more
          puts := by simp [threadKind, given, carried]
          computed := fun _ r' got => by cases carried.symm.trans got; rfl
          turned := rfl
          printed := rfl
          initial := fun outside => by simp [given, carried, threadKind] at outside }

variable (C) in
theorem thread_laws : (threadKind C test).Laws test where
  begins := thread_begins
  resumes := thread_resumes

theorem thread_starts (c : C) : (threadKind C test).Starts test c (Thread.start test) where
  rests := Nat.zero_le _
  outside := fun puts => by cases puts
  turns := rfl
  lost := rfl
  printed := rfl
  initial := rfl

end Positions

section Runs

variable [Fintype C] [DecidableEq C] (test : Test δ)

/-- New threads, with clients of their own. -/
def startThreads (pool : Pool (Option δ)) : System C δ × (C → Thread δ) :=
  (atRest pool fun _ => test.identifier, fun _ => Thread.start test)

variable {test} {uniqid : ℕ → Bytes} {x y : System C δ × (C → Thread δ)}

/-- The threads on the system are followed by threads on single attempts. -/
theorem threads_run {pool : Pool (Option δ)}
    (ran : Relation.ReflTransGen ((run test).Step (Labelled uniqid)) (startThreads test pool) x) :
    Tracks uniqid (Shared (threadKind C test) test pool) x :=
  shared_run (thread_laws C) thread_starts ran

/-- The thread is in no call and starts no other one. -/
def Ended (test : Test δ) (x : System C δ × (C → Thread δ)) (c : C) : Prop :=
  x.1.control c = .idle ∧ (x.2 c).next test = none

omit [Fintype C] [DecidableEq C] in
/-- A thread that has ended has gone through its whole loop. -/
theorem ended_turns {c : C} {thread : Thread δ} (rests : (threadKind C test).Rests c thread)
    (nothing : thread.next test = none) : thread.i = test.totalIteration := by
  obtain ⟨turn, a, printed, point⟩ := thread
  cases point with
  | crashed => exact False.elim rests
  | putting => cases nothing
  | loop =>
    simp only [Thread.next] at nothing
    split at nothing
    · cases nothing
    · have atMost : turn ≤ test.totalIteration := rests
      change turn = test.totalIteration
      omega

theorem compose_incremented {num : ℤ → δ} (adds : ∀ z, test.increment (some (num z)) = num (z + 1))
    (z : ℤ) (n : ℕ) : (incremented test)^[n] (some (num z)) = some (num (z + n)) := by
  induction n with
  | zero => simp
  | succ n ih =>
    rw [Function.iterate_succ_apply', ih, incremented, adds]
    congr 2
    omega

/-- When all threads have ended, in whatever order their messages came, the
data are those at the start, incremented once for every turn of every thread
but those that printed a message. For numbers the difference between the
expected value and the one that is read is the number of messages. -/
theorem threads_count_turns (test : Test δ) (uniqid : ℕ → Bytes) (pool : Pool (Option δ))
    (x : System C δ × (C → Thread δ))
    (ran : Relation.ReflTransGen ((run test).Step (Labelled uniqid)) (startThreads test pool) x)
    (ended : ∀ c, Ended test x c) (text : Bytes) (now : Clock) :
    ∑ c, (x.2 c).printed ≤ test.totalIteration * Fintype.card C ∧
    readValue test text now x.1.pool =
      (incremented test)^[test.totalIteration * Fintype.card C - ∑ c, (x.2 c).printed]
        (readValue test text now pool) ∧
    ∀ (num : ℤ → δ) (first last : ℤ), (∀ z, test.increment (some (num z)) = num (z + 1)) →
      readValue test text now pool = some (num first) → Function.Injective num →
      readValue test text now x.1.pool = some (num last) →
      (test.totalIteration * Fintype.card C : ℕ) + first - last = (∑ c, (x.2 c).printed : ℕ) := by
  obtain ⟨up, stage, v, ⟨ticket, represents⟩, shared⟩ := threads_run ran
  have idle : ∀ c, stage c = .idle := by
    intro c
    have stands := represents.stands c
    rw [(ended c).1] at stands
    exact stands.idle.1
  obtain ⟨n, value, sums, -⟩ := shared.value
  have total : ∑ c, (threadKind C test).turned (x.2 c) (stage c) =
      test.totalIteration * Fintype.card C := by
    have each : ∀ c, (threadKind C test).turned (x.2 c) (stage c) = test.totalIteration := by
      intro c
      have rests := shared.stands c
      rw [idle c] at rests ⊢
      exact ended_turns rests (ended c).2
    exact (Finset.sum_const_nat fun c _ => each c).trans (Nat.mul_comm _ _)
  rw [total] at sums
  change _ = n + ∑ c, (x.2 c).printed at sums
  have done : test.totalIteration * Fintype.card C - ∑ c, (x.2 c).printed = n := by omega
  have final : readValue test text now x.1.pool =
      (incremented test)^[n] (readValue test text now pool) := by
    rw [readValue_eq, readValue_eq, ← represents.pool up]
    exact value
  refine ⟨by omega, by rw [done]; exact final, ?_⟩
  intro num first last adds started injective read
  rw [final, started, compose_incremented adds] at read
  have sum : first + n = last := injective (Option.some.inj read)
  omega

def sampleTest : Test ℤ := ⟨1, 0, 0, fun d => d.getD 0 + 1, sampleIdentifier true⟩

/-- Two threads with one turn and one attempt each: the first one gets the
variable, the other one prints a message. -/
theorem one_of_two_turns_lost :
    ∃ x : System Bool ℤ × (Bool → Thread ℤ),
      readValue sampleTest [] sampleClock x.1.pool = some 1 ∧
        (1 * Fintype.card Bool : ℕ) + (0 : ℤ) - 1 = (∑ c, (x.2 c).printed : ℕ) := by
  have asked : Relation.ReflTransGen ((run sampleTest).Step (Labelled sampleUniqid))
      (startThreads sampleTest emptyPool : System Bool ℤ × (Bool → Thread ℤ)) _ :=
    (Relation.ReflTransGen.refl.tail (.invoke rfl (.beginCall _ true _ rfl))).tail
      (.invoke rfl (.beginCall _ false _ rfl))
  have sent := (asked.tail (.silent (.send _ true _ rfl rfl))).tail
    (.silent (.send _ false _ rfl rfl))
  have served := (sent.tail (.silent (.serve _ true _ _ sampleClock rfl rfl))).tail
    (.silent (.serve _ false _ _ sampleClock rfl rfl))
  have returned := (served.tail (.respond (.returns _ false _ _ rfl rfl))).tail
    (.respond (.returns _ true _ _ rfl rfl))
  have putting := (returned.tail (.invoke rfl (.beginCall _ true _ rfl))).tail
    (.silent (.send _ true _ rfl rfl))
  have ended := (putting.tail (.silent (.serve _ true _ _ sampleClock rfl rfl))).tail
    (.respond (.returns _ true _ _ rfl rfl))
  have law := threads_count_turns sampleTest sampleUniqid emptyPool _ ended
    (by intro c; cases c <;> exact ⟨rfl, rfl⟩) [] sampleClock
  refine ⟨_, law.2.1, ?_⟩
  exact law.2.2 id 0 1 (fun z => rfl) rfl Function.injective_id law.2.1

end Runs

section Ending

/-- The attempts that a call has left after this one. -/
def attemptsLeft (invocation : Invocation δ) : ℕ := (invocation.maxAttempt.getD 0).toNat

theorem attemptsLeft_again {invocation next : Invocation δ}
    {response : ResponseWrapperImpl (Option δ)} (more : invocation.again response = some next) :
    attemptsLeft next + 1 = attemptsLeft invocation := by
  obtain ⟨call, maxAttempt⟩ := invocation
  cases maxAttempt with
  | none => cases more
  | some ma =>
    simp only [Invocation.again] at more
    split at more
    · split at more
      · cases more
        simp only [attemptsLeft, Option.getD_some]
        omega
      · cases more
    · cases more

variable (test : Test δ)

/-- The steps that one turn of a loop can take: to start `get`, three for each
attempt, and four for `put`. -/
def turnSteps : ℕ := 3 * test.maxAttempt.toNat + 8

/-- The steps that are left to a thread and the client in it. -/
def stepsLeft (thread : Thread δ) (control : Control δ) : ℕ :=
  let later := (test.totalIteration - (thread.i + 1)) * turnSteps test
  let put := if thread.point = .loop then 4 else 0
  match control with
  | .idle =>
    match thread.point with
    | .loop => (test.totalIteration - thread.i) * turnSteps test
    | .putting => later + 4
    | .crashed => 0
  | .attempting invocation => later + put + 3 * attemptsLeft invocation + 3
  | .waiting invocation _ => later + put + 3 * attemptsLeft invocation + 2
  | .answered invocation _ => later + put + 3 * attemptsLeft invocation + 1

variable {test} {thread : Thread δ}

theorem stepsLeft_next {i : Invocation δ} (asks : thread.next test = some i) :
    stepsLeft test thread (.attempting i) < stepsLeft test thread .idle := by
  obtain ⟨turn, a, printed, point⟩ := thread
  cases point with
  | crashed => cases asks
  | putting =>
    cases asks
    simp [stepsLeft, attemptsLeft]
  | loop =>
    simp only [Thread.next] at asks
    split at asks
    · rename_i more
      cases asks
      obtain ⟨n, left⟩ := Nat.exists_eq_add_of_lt more
      have this_turn : test.totalIteration - turn = (test.totalIteration - (turn + 1)) + 1 := by
        omega
      simp only [stepsLeft, attemptsLeft, if_true, Option.getD_some, this_turn, Nat.add_mul,
        turnSteps]
      omega
    · cases asks

theorem stepsLeft_resume (o : Outcome δ) :
    stepsLeft test (thread.resume test o) .idle ≤
      (test.totalIteration - (thread.i + 1)) * turnSteps test +
        if thread.point = .loop then 4 else 0 := by
  obtain ⟨turn, a, printed, point⟩ := thread
  cases point with
  | crashed => exact Nat.zero_le _
  | putting =>
    cases o with
    | returned response => exact Nat.le_refl _
    | gaveUp => exact Nat.zero_le _
    | threw ex => exact Nat.zero_le _
  | loop =>
    cases o with
    | gaveUp => exact Nat.le_add_right _ _
    | threw ex =>
      cases ex with
      | exception message => exact Nat.le_add_right _ _
      | memberCall method => exact Nat.zero_le _
    | returned response =>
      simp only [Thread.resume]
      cases response.resource with
      | none => exact Nat.zero_le _
      | some r => exact Nat.le_refl _

variable [Fintype C] [DecidableEq C] {uniqid : ℕ → Bytes} {x y : System C δ × (C → Thread δ)}

theorem sum_decreases {f g : C → ℕ} (c : C) (others : ∀ c', c' ≠ c → g c' = f c')
    (less : g c < f c) : ∑ c, g c < ∑ c, f c := by
  have changed := sum_change c others
  omega

variable (test) in
def allStepsLeft (x : System C δ × (C → Thread δ)) : ℕ :=
  ∑ c, stepsLeft test (x.2 c) (x.1.control c)

theorem allStepsLeft_update {s : System C δ} {threads : C → Thread δ} {control : C → Control δ}
    {c : C} {th : Thread δ} {there : Control δ} (same : s.control = Function.update control c there)
    (less : stepsLeft test th there < stepsLeft test (threads c) (control c)) :
    allStepsLeft test (s, Function.update threads c th) <
      ∑ c, stepsLeft test (threads c) (control c) := by
  refine sum_decreases c ?_ ?_
  · intro c' other
    simp only [same, Function.update_of_ne other]
  · simp only [same, Function.update_self]
    exact less

theorem allStepsLeft_step (step : (run test).Step (Labelled uniqid) x y) (up : y.1.up = true) :
    allStepsLeft test y < allStepsLeft test x := by
  cases step with
  | @silent s s' threads now =>
    suffices moved : ∃ c there, s'.control = Function.update s.control c there ∧
        stepsLeft test (threads c) there < stepsLeft test (threads c) (s.control c) by
      obtain ⟨c, there, same, less⟩ := moved
      have decreases := allStepsLeft_update same less
      rw [Function.update_eq_self] at decreases
      exact decreases
    cases now with
    | @send c invocation attempting wrapper this ran =>
      refine ⟨c, .waiting invocation wrapper, ?_, ?_⟩
      · rw [System.send, ran]
      · rw [attempting]
        exact Nat.lt_succ_self _
    | serve c invocation wrapper now _ waiting =>
      rw [System.serveClient] at up ⊢
      cases answered : manageWrapper (some wrapper) now s.pool with
      | error ex pool =>
        rw [answered] at up
        cases up
      | ok response pool =>
        refine ⟨c, .answered invocation response, rfl, ?_⟩
        rw [waiting]
        exact Nat.lt_succ_self _
    | @goesOn c invocation response answered next more =>
      refine ⟨c, .attempting next, ?_, ?_⟩
      · rw [System.receive, Control.after, more]
      · have left := attemptsLeft_again more
        rw [answered]
        simp only [stepsLeft]
        omega
  | @invoke s s' threads c i asks now =>
    cases now with
    | beginCall _ _ idle =>
      have less := stepsLeft_next asks
      rw [← idle] at less
      have decreases := allStepsLeft_update (s := s.beginCall c i) rfl less
      rw [Function.update_eq_self] at decreases
      exact decreases
  | @respond s s' threads c o now =>
    have resumed : stepsLeft test ((threads c).resume test o) .idle ≤ _ := stepsLeft_resume o
    cases now with
    | throws _ invocation attempting threw =>
      refine allStepsLeft_update ?_ (lt_of_le_of_lt resumed ?_)
      · rw [System.send, threw]
      · rw [attempting]
        simp only [stepsLeft]
        omega
    | returns _ invocation response answered last =>
      refine allStepsLeft_update ?_ (lt_of_le_of_lt resumed ?_)
      · rw [System.receive, Control.after, last]
      · rw [answered]
        simp only [stepsLeft]
        omega

omit [Fintype C] in
/-- As long as a thread has not ended, something can be done, and nothing else
can. -/
theorem step_iff (up : x.1.up = true) :
    (∃ y, (run test).Step (Labelled uniqid) x y) ↔ ∃ c, ¬ Ended test x c := by
  obtain ⟨s, threads⟩ := x
  constructor
  · rintro ⟨y, step⟩
    have busy : ∀ {c}, s.control c ≠ .idle → ∃ c, ¬ Ended test (s, threads) c :=
      fun calling => ⟨_, fun ended => calling ended.1⟩
    cases step with
    | silent now =>
      cases now with
      | send c invocation attempting ran => exact busy (by rw [attempting]; simp)
      | serve c invocation wrapper now up waiting => exact busy (by rw [waiting]; simp)
      | goesOn c invocation response answered more => exact busy (by rw [answered]; simp)
    | @invoke _ _ _ c i asks now =>
      refine ⟨c, fun ended => ?_⟩
      cases asks.symm.trans ended.2
    | respond now =>
      cases now with
      | throws c invocation attempting threw => exact busy (by rw [attempting]; simp)
      | returns c invocation response answered last => exact busy (by rw [answered]; simp)
  · rintro ⟨c, going⟩
    cases control : s.control c with
    | idle =>
      cases asks : (threads c).next test with
      | none => exact False.elim (going ⟨control, asks⟩)
      | some i => exact ⟨_, .invoke asks (.beginCall s c i control)⟩
    | attempting invocation =>
      cases ran : invocation.call.run (uniqid s.made) (s.client c) with
      | ok wrapper this => exact ⟨_, .silent (.send s c invocation control ran)⟩
      | error ex this => exact ⟨_, .respond (.throws s c invocation control ran)⟩
    | waiting invocation wrapper =>
      exact ⟨_, .silent (.serve s c invocation wrapper ⟨[], []⟩ up control)⟩
    | answered invocation response =>
      cases more : invocation.again response with
      | none => exact ⟨_, .respond (.returns s c invocation response control more)⟩
      | some next => exact ⟨_, .silent (.goesOn s c invocation response control more)⟩

/-- No thread ends before its loop does, and there is always something to do
until all have ended; which is after a number of steps that the constants of
the test bound, in whatever order they are taken. -/
theorem threads_end (test : Test δ) (uniqid : ℕ → Bytes) (pool : Pool (Option δ)) (n : ℕ)
    (x : ℕ → System C δ × (C → Thread δ)) (first : x 0 = startThreads test pool)
    (steps : ∀ m, m < n → (run test).Step (Labelled uniqid) (x m) (x (m + 1))) :
    n ≤ Fintype.card C * (test.totalIteration * (3 * test.maxAttempt.toNat + 8)) ∧
    (∀ c, ((x n).2 c).point ≠ .crashed) ∧
    ((∃ y, (run test).Step (Labelled uniqid) (x n) y) ↔ ∃ c, ¬ Ended test (x n) c) := by
  have tracked : ∀ m, m ≤ n → Tracks uniqid (Shared (threadKind C test) test pool) (x m) ∧
      m + allStepsLeft test (x m) ≤ allStepsLeft test (x 0) := by
    intro m
    induction m with
    | zero =>
      intro _
      refine ⟨?_, by omega⟩
      rw [first]
      exact Tracks.start (shared_start thread_starts)
    | succ m ih =>
      intro atMost
      obtain ⟨tracked, fewer⟩ := ih (by omega)
      have next := shared_step (thread_laws C) tracked (steps m (by omega))
      have decreases := allStepsLeft_step (steps m (by omega)) next.1
      exact ⟨next, by omega⟩
  have all : allStepsLeft test (x 0) =
      Fintype.card C * (test.totalIteration * (3 * test.maxAttempt.toNat + 8)) := by
    rw [first]
    exact Finset.sum_const_nat fun c _ => rfl
  obtain ⟨⟨up, stage, v, -, shared⟩, fewer⟩ := tracked n (Nat.le_refl n)
  refine ⟨by omega, ?_, step_iff up⟩
  intro c crashed
  have stands := shared.stands c
  cases st : stage c with
  | idle =>
    rw [st] at stands
    simp only [Kind.Stands, threadKind, crashed] at stands
  | invoked i =>
    rw [st] at stands
    exact stands.1.2 crashed
  | done o =>
    rw [st] at stands
    exact stands.1.2 crashed

/-- Two threads have started their first `get`, and go on. -/
theorem two_threads_go_on :
    ∃ x : System Bool ℤ × (Bool → Thread ℤ), ¬ Ended sampleTest x true ∧
      ∃ y, (run sampleTest).Step (Labelled sampleUniqid) x y := by
  let s₀ : System Bool ℤ := atRest emptyPool sampleIdentifier
  let s₁ := s₀.beginCall true ⟨.get (some 0), some 0⟩
  let s₂ := s₁.beginCall false ⟨.get (some 0), some 0⟩
  let x : ℕ → System Bool ℤ × (Bool → Thread ℤ) := fun m =>
    (if m = 0 then s₀ else if m = 1 then s₁ else s₂, fun _ => Thread.start sampleTest)
  have steps : ∀ m, m < 2 → (run sampleTest).Step (Labelled sampleUniqid) (x m) (x (m + 1)) := by
    intro m less
    match m, less with
    | 0, _ => exact .invoke rfl (.beginCall s₀ true _ rfl)
    | 1, _ => exact .invoke rfl (.beginCall s₁ false _ rfl)
  have law := threads_end sampleTest sampleUniqid emptyPool 2 x rfl steps
  have going : ¬ Ended sampleTest (x 2) true := by
    rintro ⟨idle, -⟩
    cases idle
  exact ⟨x 2, going, law.2.2.mpr ⟨true, going⟩⟩

end Ending

end IncrementThreads
