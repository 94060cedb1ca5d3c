import Anyem.Client
import Anyem.PhpValues
import Anyem.PoolCells

/-!
# The retry loop of the client

`action` calls the method of the parent class again and again until a reply
says `SUCCESS`, sleeping after every other reply, and gives up when its counter
gets below zero. The counter is tested after the pass, so a counter of `n`
allows `n + 1` requests.
-/

namespace RetryLoop

open Resource PoolCells Client PhpValues

variable {δ : Type}

/-- The methods of `AnyemClientImpl`; the data of `get` are not `NULL`. -/
inductive AnyemCall (δ : Type) where
  | get (data : δ)
  | release
  | delete

/-- The method of `ClientImpl` that is called in each pass. -/
def AnyemCall.call : AnyemCall δ → Call δ
  | .get data => .get (some data)
  | .release => .release
  | .delete => .delete

/-- What the outside does in one pass: the string of `uniqid`, if it is asked
for one, and the server's reply, which has one of its two codes. -/
structure Turn (δ : Type) where
  uniqid : Bytes
  response : ResponseWrapperImpl (Option δ)
  answered : Success response ∨ Refused response

/-- What the outside sees of the loop. `usleep` is taken to return. -/
inductive Effect (δ : Type) where
  | request (wrapper : ResourceWrapper (Option δ))
  | sleep (delayAttempt : Value)

/-- How a call ends. `notNumber` is the error that PHP 8 throws where a number is
needed and the value is none. -/
inductive Ending (δ : Type) where
  | returned (response : ResponseWrapperImpl (Option δ))
  | thrown (ex : Throwable)
  | notNumber

structure Outcome (δ : Type) where
  effects : List (Effect δ)
  ending : Ending δ
  client : ClientImpl δ

/-- Put what happened in one pass before the rest. -/
def Outcome.after (o : Outcome δ) (effects : List (Effect δ)) : Outcome δ :=
  { o with effects := effects ++ o.effects }

def allAttemptsUsed (php : Php) (maxAttempt : Value) : Bytes :=
  ascii "all attempts are used without releasing the resource (total = " ++
    maxAttempt.text php ++ ascii ")"

/-- A call of `action` with its parameters, and what the outside does in every
pass. -/
structure ActionCall (δ : Type) where
  php : Php
  call : AnyemCall δ
  maxAttempt : Value
  delayAttempt : Value
  turn : ℕ → Turn δ

/-- The log line of a success calculates with the parameters. -/
def ActionCall.logs (a : ActionCall δ) : Bool :=
  (a.maxAttempt.operand a.php).isSome && (a.delayAttempt.operand a.php).isSome

/-- The loop from pass `i` on, with at most `fuel` passes. A missing code
compares as the code of success. -/
def passes (a : ActionCall δ) : ℕ → ℕ → Value → ClientImpl δ → Option (Outcome δ)
  | 0, _, _, _ => none
  | fuel + 1, i, ma, this =>
    match a.call.call.run (a.turn i).uniqid this with
    | .error ex this' => some ⟨[], .thrown ex, this'⟩
    | .ok wrapper this' =>
      if (a.turn i).response.responseCode.getD 0 ≠ IResponseWrapper.successResponseCode then
        if a.delayAttempt.canSleep a.php then
          if (ma.decrement a.php).atLeastZero a.php then
            (passes a fuel (i + 1) (ma.decrement a.php) this').map fun o =>
              o.after [.request wrapper, .sleep a.delayAttempt]
          else some ⟨[.request wrapper, .sleep a.delayAttempt],
            .thrown (.exception (allAttemptsUsed a.php a.maxAttempt)), this'⟩
        else some ⟨[.request wrapper], .notNumber, this'⟩
      else if a.logs then some ⟨[.request wrapper], .returned (a.turn i).response, this'⟩
      else some ⟨[.request wrapper], .notNumber, this'⟩

def action (a : ActionCall δ) (fuel : ℕ) (this : ClientImpl δ) : Option (Outcome δ) :=
  passes a fuel 0 a.maxAttempt this

/-- What `init` reads from the configuration. -/
structure Defaults where
  maxAttempt : Value
  delayAttempt : Value

/-- A parameter that is `NULL` stands for its default. -/
def orDefault (given default : Value) : Value := if given = .null then default else given

/-- A call of `get`, `release` or `delete` with its optional parameters. -/
def Defaults.fill (defaults : Defaults) (a : ActionCall δ) : ActionCall δ :=
  { a with
    maxAttempt := orDefault a.maxAttempt defaults.maxAttempt
    delayAttempt := orDefault a.delayAttempt defaults.delayAttempt }

section OnePass

theorem Turn.success_code {t : Turn δ} (success : Success t.response) :
    ¬ t.response.responseCode.getD 0 ≠ IResponseWrapper.successResponseCode := by
  have code : t.response.responseCode = some IResponseWrapper.successResponseCode := success
  simp [code]

theorem Turn.refused_code {t : Turn δ} (refused : Refused t.response) :
    t.response.responseCode.getD 0 ≠ IResponseWrapper.successResponseCode := by
  have code : t.response.responseCode = some IResponseWrapper.errorResponseCode := refused
  simp [code, IResponseWrapper.errorResponseCode, IResponseWrapper.successResponseCode]

theorem Turn.refused_iff (t : Turn δ) : Refused t.response ↔ ¬ Success t.response := by
  constructor
  · intro refused success
    exact Turn.success_code success (Turn.refused_code refused)
  · exact t.answered.resolve_left

/-- The three methods get as far as their request. -/
theorem AnyemCall.run_ok (call : AnyemCall δ) (uniqid : Bytes) (this : ClientImpl δ) :
    ∃ wrapper this', call.call.run uniqid this = .ok wrapper this' := by
  cases call with
  | get data => exact ⟨_, _, rfl⟩
  | release => exact ⟨_, _, rfl⟩
  | delete => exact ⟨_, _, rfl⟩

variable {a : ActionCall δ} (fuel : ℕ) {i : ℕ} {ma : Value} (this : ClientImpl δ)

/-- A pass that is answered `SUCCESS` is the last one. -/
theorem passes_success (logs : a.logs = true) (success : Success (a.turn i).response) :
    ∃ wrapper this', passes a (fuel + 1) i ma this =
      some ⟨[.request wrapper], .returned (a.turn i).response, this'⟩ := by
  obtain ⟨wrapper, this', ran⟩ := a.call.run_ok (a.turn i).uniqid this
  refine ⟨wrapper, this', ?_⟩
  rw [passes, ran]
  exact (if_neg (Turn.success_code success)).trans (if_pos logs)

/-- A pass that is refused goes around again as long as the counter allows it. -/
theorem passes_again (sleeps : a.delayAttempt.canSleep a.php = true)
    (refused : Refused (a.turn i).response)
    (more : (ma.decrement a.php).atLeastZero a.php = true) :
    ∃ wrapper this', ∀ fuel, passes a (fuel + 1) i ma this =
      (passes a fuel (i + 1) (ma.decrement a.php) this').map
        fun o => o.after [.request wrapper, .sleep a.delayAttempt] := by
  obtain ⟨wrapper, this', ran⟩ := a.call.run_ok (a.turn i).uniqid this
  refine ⟨wrapper, this', ?_⟩
  intro fuel
  rw [passes, ran]
  exact (if_pos (Turn.refused_code refused)).trans ((if_pos sleeps).trans (if_pos more))

theorem passes_exhausted (sleeps : a.delayAttempt.canSleep a.php = true)
    (refused : Refused (a.turn i).response)
    (done : (ma.decrement a.php).atLeastZero a.php = false) :
    ∃ wrapper this', passes a (fuel + 1) i ma this =
      some ⟨[.request wrapper, .sleep a.delayAttempt],
        .thrown (.exception (allAttemptsUsed a.php a.maxAttempt)), this'⟩ := by
  obtain ⟨wrapper, this', ran⟩ := a.call.run_ok (a.turn i).uniqid this
  refine ⟨wrapper, this', ?_⟩
  rw [passes, ran]
  exact (if_pos (Turn.refused_code refused)).trans
    ((if_pos sleeps).trans (if_neg (by simp [done])))

/-- A pass that is refused is the last one where `usleep` throws. -/
theorem passes_stopped (stops : a.delayAttempt.canSleep a.php = false)
    (refused : Refused (a.turn i).response) :
    ∃ wrapper this', passes a (fuel + 1) i ma this =
      some ⟨[.request wrapper], .notNumber, this'⟩ := by
  obtain ⟨wrapper, this', ran⟩ := a.call.run_ok (a.turn i).uniqid this
  refine ⟨wrapper, this', ?_⟩
  rw [passes, ran]
  exact (if_pos (Turn.refused_code refused)).trans (if_neg (by simp [stops]))

/-- What one pass leaves to the passes after it. -/
theorem passes_cases {fuel : ℕ} {this : ClientImpl δ} {o : Outcome δ}
    (ran : passes a (fuel + 1) i ma this = some o) :
    ∃ wrapper this', a.call.call.run (a.turn i).uniqid this = .ok wrapper this' ∧
      ((∃ rest, passes a fuel (i + 1) (ma.decrement a.php) this' = some rest ∧
        o = rest.after [.request wrapper, .sleep a.delayAttempt]) ∨
      ∃ effects ending, (∀ e ∈ effects, e = .sleep a.delayAttempt) ∧
        o = ⟨.request wrapper :: effects, ending, this'⟩) := by
  obtain ⟨wrapper, this', sent⟩ := a.call.run_ok (a.turn i).uniqid this
  refine ⟨wrapper, this', sent, ?_⟩
  rw [passes, sent] at ran
  simp only at ran
  split at ran
  · split at ran
    · split at ran
      · obtain ⟨rest, ran', same⟩ := Option.map_eq_some_iff.mp ran
        exact Or.inl ⟨rest, ran', same.symm⟩
      · exact Or.inr ⟨[.sleep a.delayAttempt], _, by simp, (Option.some.inj ran).symm⟩
    · exact Or.inr ⟨[], _, by simp, (Option.some.inj ran).symm⟩
  · split at ran
    · exact Or.inr ⟨[], _, by simp, (Option.some.inj ran).symm⟩
    · exact Or.inr ⟨[], _, by simp, (Option.some.inj ran).symm⟩

/-- A run that ended has no use for more fuel. -/
theorem passes_more {fuel more : ℕ} {this : ClientImpl δ} {o : Outcome δ} (enough : fuel ≤ more)
    (ran : passes a fuel i ma this = some o) : passes a more i ma this = some o := by
  induction fuel generalizing more i ma this o with
  | zero => cases ran
  | succ fuel ih =>
    obtain ⟨more, rfl⟩ := Nat.exists_eq_add_of_le' (show 1 ≤ more by omega)
    rw [passes] at ran ⊢
    obtain ⟨wrapper, this', sent⟩ := a.call.run_ok (a.turn i).uniqid this
    rw [sent] at ran ⊢
    simp only at ran ⊢
    split
    · rename_i refused
      rw [if_pos refused] at ran
      split
      · rename_i sleeps
        rw [if_pos sleeps] at ran
        split
        · rename_i again
          rw [if_pos again] at ran
          obtain ⟨rest, ran', rfl⟩ := Option.map_eq_some_iff.mp ran
          rw [ih (by omega) ran']
          rfl
        · rename_i done
          rw [if_neg done] at ran
          exact ran
      · rename_i stops
        rw [if_neg stops] at ran
        exact ran
    · rename_i success
      rw [if_neg success] at ran
      exact ran

end OnePass

/-- A client in the system of clients goes around again when the loop does, with
the same counter. -/
theorem again_eq (php : Php) (call : AnyemCall δ) (n : ℤ) (t : Turn δ) :
    Invocation.again ⟨call.call, some n⟩ t.response =
      if Refused t.response ∧ ((Value.number (.int n)).decrement php).atLeastZero php = true then
        some ⟨call.call, some (n - 1)⟩
      else none := by
  rcases t.answered with success | refused
  · rw [Invocation.again_success _ success, if_neg]
    rintro ⟨refused, -⟩
    exact (Turn.refused_iff t).mp refused success
  · have counter : n - 1 ≥ 0 ↔
        ((Value.number (.int n)).decrement php).atLeastZero php = true := by
      rcases le_or_gt 0 n with nonneg | negative
      · have inside : ¬ n = -2 ^ 63 := by omega
        rw [Value.decrement, Number.decrement, if_neg inside]
        exact decide_eq_true_iff.symm
      · rw [Value.negative_counts negative]
        exact iff_of_false (by omega) Bool.false_ne_true
    rw [Invocation.again]
    simp only [if_pos (Turn.refused_code refused), counter, refused, true_and]

section Bound

/-- How many requests were sent. -/
def requests : List (Effect δ) → ℕ
  | [] => 0
  | .request _ :: effects => requests effects + 1
  | .sleep _ :: effects => requests effects

/-- From pass `i` on, every sleep comes right after a request that was refused,
and lasts the given delay. -/
def SleepsAfterRefusals (delayAttempt : Value) (turn : ℕ → Turn δ) : ℕ → List (Effect δ) → Prop
  | _, [] => True
  | i, .request _ :: .sleep delay :: effects =>
    Refused (turn i).response ∧ delay = delayAttempt ∧
      SleepsAfterRefusals delayAttempt turn (i + 1) effects
  | i, .request _ :: effects => SleepsAfterRefusals delayAttempt turn (i + 1) effects
  | _, .sleep _ :: _ => False

/-- What the bound `n` promises for a call: at most `n` requests, an end at the
first `SUCCESS` among `n` replies, a throw when there is none, and sleeps after
refusals only. -/
structure HonoursBound (delayAttempt : Value) (turn : ℕ → Turn δ) (n : ℕ) (o : Outcome δ) :
    Prop where
  bounded : requests o.effects ≤ n
  returns : ∀ i < n, Success (turn i).response → (∀ j < i, Refused (turn j).response) →
    o.ending = .returned (turn i).response ∧ requests o.effects = i + 1
  throws : (∃ ex, o.ending = .thrown ex) ↔ ∀ i < n, Refused (turn i).response
  sleeps : SleepsAfterRefusals delayAttempt turn 0 o.effects

/-- A delay that `usleep` goes on with. -/
structure Delay (php : Php) where
  value : Value
  valid : value.canSleep php = true

/-- An integer bound and a proper delay can be calculated with. -/
theorem logs_of_delay {a : ActionCall δ} {n : ℤ} (bound : a.maxAttempt = .number (.int n))
    (sleeps : a.delayAttempt.canSleep a.php = true) : a.logs = true := by
  rw [ActionCall.logs, bound]
  rw [Value.canSleep] at sleeps
  cases delay : a.delayAttempt.operand a.php with
  | none =>
    rw [delay] at sleeps
    cases sleeps
  | some m => rfl

section Passes

variable {a : ActionCall δ} {i k : ℕ} {this : ClientImpl δ}

theorem int_decrement (php : Php) (k : ℕ) :
    (Value.number (.int (k + 1 : ℕ))).decrement php = .number (.int k) := by
  have inside : ¬ ((k + 1 : ℕ) : ℤ) = -2 ^ 63 := by omega
  rw [Value.decrement, Number.decrement, if_neg inside]
  push_cast
  rw [add_sub_cancel_right]

theorem int_again (php : Php) (k : ℕ) :
    ((Value.number (.int (k + 1 : ℕ))).decrement php).atLeastZero php = true := by
  rw [int_decrement]
  exact decide_eq_true (Int.natCast_nonneg k)

/-- With a counter of `k` the loop lives to see the first `SUCCESS` among the
next `k + 1` replies. -/
theorem passes_returns {m : ℕ} (logs : a.logs = true)
    (sleeps : a.delayAttempt.canSleep a.php = true) (within : m ≤ k)
    (before : ∀ j < m, Refused (a.turn (i + j)).response)
    (success : Success (a.turn (i + m)).response) :
    ∃ o, passes a (m + 1) i (.number (.int k)) this = some o ∧ requests o.effects = m + 1 ∧
      o.ending = .returned (a.turn (i + m)).response ∧
      SleepsAfterRefusals a.delayAttempt a.turn i o.effects := by
  induction m generalizing i k this with
  | zero =>
    obtain ⟨wrapper, this', ran⟩ := passes_success 0 this logs success
    exact ⟨_, ran, rfl, rfl, trivial⟩
  | succ m ih =>
    obtain ⟨k, rfl⟩ := Nat.exists_eq_add_of_le' (show 1 ≤ k by omega)
    have refused : Refused (a.turn i).response := before 0 (by omega)
    obtain ⟨wrapper, this', ran⟩ := passes_again this sleeps refused (int_again a.php k)
    specialize ran (m + 1)
    have shift : ∀ j, i + (j + 1) = i + 1 + j := fun j => by omega
    rw [shift] at success ⊢
    have rest : ∀ j < m, Refused (a.turn (i + 1 + j)).response := by
      intro j hj
      rw [← shift]
      exact before (j + 1) (by omega)
    have within' : m ≤ k := by omega
    obtain ⟨o, ran', count, ending, slept⟩ := ih within' rest success
    rw [int_decrement, ran'] at ran
    exact ⟨_, ran, congrArg (· + 1) count, ending, refused, rfl, slept⟩

/-- When the next `k + 1` replies are refusals, that many requests are sent. -/
theorem passes_throws (this : ClientImpl δ) (sleeps : a.delayAttempt.canSleep a.php = true)
    (refused : ∀ j ≤ k, Refused (a.turn (i + j)).response) :
    ∃ o, passes a (k + 1) i (.number (.int k)) this = some o ∧ requests o.effects = k + 1 ∧
      o.ending = .thrown (.exception (allAttemptsUsed a.php a.maxAttempt)) := by
  induction k generalizing i this with
  | zero =>
    have done : ((Value.number (.int (0 : ℕ))).decrement a.php).atLeastZero a.php = false := rfl
    obtain ⟨wrapper, this', ran⟩ := passes_exhausted 0 this sleeps (refused 0 le_rfl) done
    exact ⟨_, ran, rfl, rfl⟩
  | succ k ih =>
    have first : Refused (a.turn i).response := refused 0 (by omega)
    obtain ⟨wrapper, this', ran⟩ := passes_again this sleeps first (int_again a.php k)
    specialize ran (k + 1)
    have rest : ∀ j ≤ k, Refused (a.turn (i + 1 + j)).response := by
      intro j hj
      rw [show i + 1 + j = i + (j + 1) by omega]
      exact refused (j + 1) (by omega)
    obtain ⟨o, ran', count, ending⟩ := ih this' rest
    rw [int_decrement, ran'] at ran
    exact ⟨_, ran, congrArg (· + 1) count, ending⟩

/-- A negative bound allows as many passes as the bound zero. -/
theorem passes_toNat (n : ℤ) (fuel : ℕ) : passes a fuel i (.number (.int n)) this =
    passes a fuel i (.number (.int n.toNat)) this := by
  rcases le_or_gt 0 n with nonneg | negative
  · rw [Int.toNat_of_nonneg nonneg]
  · have below : ((Value.number (.int n)).decrement a.php).atLeastZero a.php = false :=
      Value.negative_counts negative
    have below' : ((Value.number (.int (0 : ℕ))).decrement a.php).atLeastZero a.php = false := rfl
    rw [Int.toNat_of_nonpos negative.le]
    cases fuel with
    | zero => rfl
    | succ fuel => simp only [passes, below, below', Bool.false_eq_true, if_false]

/-- With the bound `n` there are `n + 1` passes at most, and the first `SUCCESS`
ends them. -/
theorem action_returns (this : ClientImpl δ) {m : ℕ} {n : ℤ} (bound : a.maxAttempt = .number (.int n))
    (sleeps : a.delayAttempt.canSleep a.php = true) (within : m ≤ n.toNat)
    (before : ∀ j < m, Refused (a.turn j).response) (success : Success (a.turn m).response) :
    ∃ o, (∀ fuel > n.toNat, action a fuel this = some o) ∧ requests o.effects = m + 1 ∧
      o.ending = .returned (a.turn m).response ∧
      SleepsAfterRefusals a.delayAttempt a.turn 0 o.effects := by
  rw [← Nat.zero_add m] at success ⊢
  have before' : ∀ j < m, Refused (a.turn (0 + j)).response := by
    intro j hj
    rw [Nat.zero_add]
    exact before j hj
  obtain ⟨o, ran, count, ending, slept⟩ :=
    passes_returns (logs_of_delay bound sleeps) sleeps within before' success
  refine ⟨o, ?_, by rw [count, Nat.zero_add], ending, slept⟩
  intro fuel enough
  rw [action, bound, passes_toNat]
  exact passes_more (by omega) ran

theorem action_throws (this : ClientImpl δ) {n : ℤ} (bound : a.maxAttempt = .number (.int n))
    (sleeps : a.delayAttempt.canSleep a.php = true)
    (refused : ∀ j ≤ n.toNat, Refused (a.turn j).response) :
    ∃ o, (∀ fuel > n.toNat, action a fuel this = some o) ∧
      requests o.effects = n.toNat + 1 ∧
      o.ending = .thrown (.exception (allAttemptsUsed a.php a.maxAttempt)) := by
  have refused' : ∀ j ≤ n.toNat, Refused (a.turn (0 + j)).response := by
    intro j hj
    rw [Nat.zero_add]
    exact refused j hj
  obtain ⟨o, ran, count, ending⟩ := passes_throws this sleeps refused'
  refine ⟨o, ?_, count, ending⟩
  intro fuel enough
  rw [action, bound, passes_toNat]
  exact passes_more (by omega) ran

/-- Either the first `SUCCESS` comes in one of `k + 1` replies, or they are all
refusals. -/
theorem first_success_or_refused (turn : ℕ → Turn δ) (k : ℕ) :
    (∃ m ≤ k, Success (turn m).response ∧ ∀ j < m, Refused (turn j).response) ∨
      ∀ j ≤ k, Refused (turn j).response := by
  by_cases reached : ∃ m ≤ k, Success (turn m).response
  · left
    obtain ⟨within, success⟩ := Nat.find_spec reached
    refine ⟨Nat.find reached, within, success, ?_⟩
    intro j hj
    rw [Turn.refused_iff]
    exact fun early => Nat.find_min reached hj ⟨by omega, early⟩
  · right
    intro j hj
    rw [Turn.refused_iff]
    exact fun success => reached ⟨j, hj, success⟩

/-- The bound is kept by an outcome that returned the first `SUCCESS` in time. -/
theorem honoursBound_of_returned {m n : ℕ} {o : Outcome δ} (within : m < n)
    (before : ∀ j < m, Refused (a.turn j).response) (success : Success (a.turn m).response)
    (count : requests o.effects = m + 1) (ending : o.ending = .returned (a.turn m).response)
    (sleeps : SleepsAfterRefusals a.delayAttempt a.turn 0 o.effects) :
    HonoursBound a.delayAttempt a.turn n o where
  bounded := by omega
  returns := by
    intro i _ success' before'
    have same : i = m := by
      rcases lt_trichotomy i m with less | same | more
      · exact absurd success' ((Turn.refused_iff _).mp (before i less))
      · exact same
      · exact absurd success ((Turn.refused_iff _).mp (before' m more))
    subst same
    exact ⟨ending, count⟩
  throws := by
    refine iff_of_false ?_ ?_
    · rintro ⟨ex, threw⟩
      rw [ending] at threw
      cases threw
    · intro refused
      exact (Turn.refused_iff _).mp (refused m within) success
  sleeps := sleeps

end Passes

/-- A call with the bound `n` ends, and it keeps what the bound promises exactly
when one of the first `n` replies is a `SUCCESS`; else it sends one request more. -/
theorem bound_honoured_iff_success_in_time (php : Php) (call : AnyemCall δ) (n : ℕ)
    (delay : Delay php) (turn : ℕ → Turn δ) (this : ClientImpl δ) :
    ∃ o, (∀ fuel > n,
        action ⟨php, call, .number (.int n), delay.value, turn⟩ fuel this = some o) ∧
      (HonoursBound delay.value turn n o ↔ ∃ i < n, Success (turn i).response) := by
  let a : ActionCall δ := ⟨php, call, .number (.int n), delay.value, turn⟩
  have sleeps : a.delayAttempt.canSleep a.php = true := delay.valid
  rcases first_success_or_refused turn n with ⟨m, within, success, before⟩ | refused
  · obtain ⟨o, ran, count, ending, slept⟩ :=
      action_returns (a := a) this (n := n) rfl sleeps within before success
    refine ⟨o, ran, ?_⟩
    constructor
    · intro honours
      have bounded := honours.bounded
      exact ⟨m, by omega, success⟩
    · rintro ⟨i, inTime, early⟩
      have least : m ≤ i := by
        by_contra less
        exact (Turn.refused_iff _).mp (before i (by omega)) early
      exact honoursBound_of_returned (a := a) (by omega) before success count ending slept
  · obtain ⟨o, ran, count, -⟩ := action_throws (a := a) this (n := n) rfl sleeps refused
    refine ⟨o, ran, iff_of_false ?_ ?_⟩
    · intro honours
      have bounded := honours.bounded
      rw [count, Int.toNat_natCast] at bounded
      omega
    · rintro ⟨i, inTime, success⟩
      exact (Turn.refused_iff _).mp (refused i (by omega)) success

/-- With one attempt allowed, a delete that is always refused is sent twice. -/
theorem one_attempt_sends_two_requests :
    ¬ ∀ (php : Php) (call : AnyemCall ℕ) (n : ℕ) (delay : Delay php) (turn : ℕ → Turn ℕ)
        (this : ClientImpl ℕ) (fuel : ℕ) (o : Outcome ℕ), 1 ≤ n →
      action ⟨php, call, .number (.int n), delay.value, turn⟩ fuel this = some o →
      HonoursBound delay.value turn n o := by
  intro honoured
  let refusal : Turn ℕ := ⟨[], ⟨none, none, some IResponseWrapper.errorResponseCode⟩, Or.inr rfl⟩
  have honours := honoured ⟨true, true, fun _ => []⟩ .delete 1 ⟨.number (.int 0), by decide⟩
    (fun _ => refusal) ⟨⟨[], [], []⟩, none⟩ 2 _ le_rfl rfl
  exact absurd honours.bounded (by decide)

end Bound

end RetryLoop
