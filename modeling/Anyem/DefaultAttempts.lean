import Anyem.ConfigReader
import Anyem.RetryLoop

/-!
# Calls that leave the number of attempts to the configuration

`init` reads the two defaults once, and a call without `maxAttempt` starts its
counter at what the file says. While the server refuses, such a call goes on
until the counter gets below zero. For many texts of the file it never does.
-/

namespace DefaultAttempts

open Resource PoolCells Client PhpValues ConfigReader RetryLoop

variable {δ : Type}

def defaultMaxAttempt : Bytes := ascii "defaultMaxAttempt"
def defaultDelayAttempt : Bytes := ascii "defaultDelayAttempt"

/-- A content of the configuration file that is read without throwing. -/
structure LoadedFile (php : Php) where
  name : Bytes
  content : Bytes
  config : Config
  loaded : loadConfig php name (.content content) = .ok config

/-- What `init` keeps of the file. -/
def init {php : Php} (file : LoadedFile php) : Defaults where
  maxAttempt := readConfig file.config defaultMaxAttempt .null
  delayAttempt := readConfig file.config defaultDelayAttempt .null

/-- A call without `maxAttempt` that the server refuses whenever it is asked. -/
structure RefusedCall (δ : Type) where
  call : AnyemCall δ
  delayAttempt : Value
  turn : ℕ → Turn δ
  refused : ∀ i, Refused (turn i).response

def RefusedCall.start {php : Php} (c : RefusedCall δ) (file : LoadedFile php) : ActionCall δ :=
  (init file).fill ⟨php, c.call, .null, c.delayAttempt, c.turn⟩

section Ending

variable {a : ActionCall δ} {ma : Value} {i : ℕ} {this : ClientImpl δ}

/-- A loop that is refused ends when counting down gets below zero. -/
theorem ends_of_below (refused : ∀ i, Refused (a.turn i).response)
    (sleeps : a.delayAttempt.canSleep a.php = true) {n : ℕ}
    (below : (((Value.decrement a.php)^[n + 1]) ma).atLeastZero a.php = false) :
    ∃ fuel o, passes a fuel i ma this = some o := by
  induction n generalizing i ma this with
  | zero =>
    obtain ⟨wrapper, this', ran⟩ := passes_exhausted 0 this sleeps (refused i) below
    exact ⟨1, _, ran⟩
  | succ n ih =>
    cases more : (ma.decrement a.php).atLeastZero a.php with
    | false =>
      obtain ⟨wrapper, this', ran⟩ := passes_exhausted 0 this sleeps (refused i) more
      exact ⟨1, _, ran⟩
    | true =>
      obtain ⟨wrapper, this', ran⟩ := passes_again this sleeps (refused i) more
      obtain ⟨fuel, o, rest⟩ :
          ∃ fuel o, passes a fuel (i + 1) (ma.decrement a.php) this' = some o := ih below
      refine ⟨fuel + 1, o.after [.request wrapper, .sleep a.delayAttempt], ?_⟩
      rw [ran, rest]
      rfl

/-- A loop that is refused and ends has counted down below zero. -/
theorem below_of_ends (refused : ∀ i, Refused (a.turn i).response)
    (sleeps : a.delayAttempt.canSleep a.php = true) {fuel : ℕ} {o : Outcome δ}
    (ran : passes a fuel i ma this = some o) :
    ∃ n, (((Value.decrement a.php)^[n + 1]) ma).atLeastZero a.php = false := by
  induction fuel generalizing i ma this o with
  | zero => cases ran
  | succ fuel ih =>
    cases more : (ma.decrement a.php).atLeastZero a.php with
    | false => exact ⟨0, more⟩
    | true =>
      obtain ⟨wrapper, this', again⟩ := passes_again this sleeps (refused i) more
      rw [again] at ran
      obtain ⟨rest, ran', -⟩ := Option.map_eq_some_iff.mp ran
      obtain ⟨n, below⟩ := ih ran'
      exact ⟨n + 1, below⟩

theorem ends_iff (refused : ∀ i, Refused (a.turn i).response)
    (sleeps : a.delayAttempt.canSleep a.php = true) :
    (∃ fuel o, passes a fuel i ma this = some o) ↔ ma.CountsDown a.php := by
  rw [Value.countsDown_iff]
  constructor
  · rintro ⟨fuel, o, ran⟩
    exact below_of_ends refused sleeps ran
  · rintro ⟨n, below⟩
    exact ends_of_below refused sleeps below

/-- A call that is always refused ends exactly when its default counts down, or
when `usleep` throws at its delay. -/
theorem refused_call_ends_iff (php : Php) (file : LoadedFile php) (c : RefusedCall δ)
    (this : ClientImpl δ) : (∃ fuel o, action (c.start file) fuel this = some o) ↔
      (readConfig file.config defaultMaxAttempt .null).CountsDown php ∨
        (orDefault c.delayAttempt
          (readConfig file.config defaultDelayAttempt .null)).canSleep php = false := by
  cases sleeps : (c.start file).delayAttempt.canSleep php with
  | true =>
    have slept : ¬ (orDefault c.delayAttempt
        (readConfig file.config defaultDelayAttempt .null)).canSleep php = false := by
      intro stops
      exact Bool.false_ne_true (stops.symm.trans sleeps)
    rw [or_iff_left slept]
    exact ends_iff (a := c.start file) c.refused sleeps
  | false =>
    refine iff_of_true ?_ (Or.inr sleeps)
    obtain ⟨wrapper, this', ran⟩ :
        ∃ wrapper this', passes (c.start file) 1 0 (c.start file).maxAttempt this =
          some ⟨[.request wrapper], .notNumber, this'⟩ :=
      passes_stopped 0 this sleeps (c.refused 0)
    exact ⟨1, _, ran⟩

/-- An empty file leaves `NULL` for the counter, and the call never ends. -/
theorem absent_default_never_ends :
    ¬ ∀ (php : Php) (file : LoadedFile php) (c : RefusedCall ℕ) (this : ClientImpl ℕ),
      ∃ fuel o, action (c.start file) fuel this = some o := by
  intro terminates
  let php : Php := ⟨true, true, fun _ => []⟩
  let file : LoadedFile php := ⟨[], [], fun _ => none, rfl⟩
  let refusal : Turn ℕ := ⟨[], ⟨none, none, some IResponseWrapper.errorResponseCode⟩, Or.inr rfl⟩
  let c : RefusedCall ℕ := ⟨.get 6, .number (.int 0), fun _ => refusal, fun _ => rfl⟩
  have ends := terminates php file c ⟨⟨[], [], []⟩, none⟩
  exact (ends_iff (a := c.start file) c.refused rfl).mp ends

end Ending

end DefaultAttempts
