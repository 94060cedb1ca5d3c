import Anyem.PoolInvariant
import Anyem.RetryLoop

/-!
# A get that is tried again

Every attempt of a `get` builds a resource with a new transaction id. The server
takes requests one by one, so between two attempts it takes some requests of
other clients. A granted attempt is the last one, and a refused one leaves
nothing behind; so a call that returns has reserved once, with the id that it
keeps, and a call that gives up has not reserved at all.
-/

namespace RetriedGet

open ReplyMachine Resource ResourceHolder ResourceManager PoolCells Reservations PoolInvariant
  Client PhpValues RetryLoop

variable {δ : Type}

/-- The order in which the server takes the attempts of a call and the requests
of other clients: `others i` come right before attempt `i`, and what `uniqid`
gives to the call is given to nobody else. -/
structure Interleaving (δ : Type) where
  uniqid : ℕ → Bytes
  distinct : Function.Injective uniqid
  others : ℕ → List (Request (Option δ))
  foreign : ∀ i, ∀ q ∈ others i, ∀ j, q.transactionId ≠ some (uniqid j)
  clock : ℕ → Clock

namespace Interleaving

variable (w : Interleaving δ) (i : ResourceIdentifierImpl) (data : δ)

/-- The request of the attempt, with the server's clock when it is taken. -/
def attempt (n : ℕ) : Request (Option δ) :=
  Request.build IResourceHolder.get i (w.uniqid n) (some data) (w.clock n)

/-- What the server takes up to the attempt, without it. -/
def served : ℕ → List (Request (Option δ))
  | 0 => w.others 0
  | n + 1 => served n ++ w.attempt i data n :: w.others (n + 1)

/-- The pool that the attempt finds. -/
def pool (n : ℕ) : Pool (Option δ) := final serve emptyPool (w.served i data n)

def turn (n : ℕ) : Turn δ where
  uniqid := w.uniqid n
  response := (serve (w.pool i data n) (w.attempt i data n)).1
  answered := by
    rw [serve_refused_iff]
    exact Classical.em _

/-- The call of `get`, with the replies that the server gives in this order. -/
def call (php : Php) (maxAttempt : ℤ) (delay : Delay php) : ActionCall δ :=
  ⟨php, .get data, .number (.int maxAttempt), delay.value, w.turn i data⟩

end Interleaving

/-- The wrappers that were sent. -/
def wrappers : List (Effect δ) → List (ResourceWrapper (Option δ))
  | [] => []
  | .request wrapper :: effects => wrapper :: wrappers effects
  | .sleep _ :: effects => wrappers effects

section Sent

theorem sleeps_only {effects : List (Effect δ)} {delayAttempt : Value}
    (slept : ∀ e ∈ effects, e = .sleep delayAttempt) :
    requests effects = 0 ∧ wrappers effects = [] := by
  induction effects with
  | nil => exact ⟨rfl, rfl⟩
  | cons e effects ih =>
    obtain rfl := slept e List.mem_cons_self
    exact ih fun e' member => slept e' (List.mem_cons_of_mem _ member)

/-- Every pass of a `get` sends a new resource, and the last one is kept. -/
theorem passes_get {a : ActionCall δ} {data : δ} (get : a.call = .get data) {fuel i : ℕ}
    {ma : Value} {this : ClientImpl δ} {o : Outcome δ} (ran : passes a fuel i ma this = some o) :
    ∃ n, requests o.effects = n + 1 ∧ o.client.token = some (some (a.turn (i + n)).uniqid) ∧
      wrappers o.effects = (List.range (n + 1)).map fun j =>
        ⟨some (ResourceImpl.construct (some this.resourceIdentifier) (some data)
          (a.turn (i + j)).uniqid), IResourceHolder.get⟩ := by
  induction fuel generalizing i ma this o with
  | zero => cases ran
  | succ fuel ih =>
    obtain ⟨wrapper, this', sent, more⟩ := passes_cases ran
    rw [get] at sent
    cases sent
    rcases more with ⟨rest, ran', rfl⟩ | ⟨effects, ending, slept, rfl⟩
    · obtain ⟨n, count, kept, were⟩ := ih ran'
      have shift : ∀ j, i + (j + 1) = i + 1 + j := fun j => by omega
      refine ⟨n + 1, congrArg (· + 1) count, ?_, ?_⟩
      · rw [shift]
        exact kept
      · rw [List.range_succ_eq_map, List.map_cons, List.map_map]
        refine congrArg _ (were.trans (List.map_congr_left ?_))
        intro j _
        rw [Function.comp_apply, Nat.succ_eq_add_one, shift j]
    · obtain ⟨count, were⟩ := sleeps_only slept
      refine ⟨0, congrArg (· + 1) count, rfl, ?_⟩
      exact congrArg _ were

end Sent

section Taken

variable {w : Interleaving δ} {i : ResourceIdentifierImpl} {data : δ}

/-- A request of other clients carries none of the ids. -/
theorem foreign_event {pool : Pool (Option δ)} {n : ℕ} {e : ServerEvent (Option δ)}
    (member : e ∈ trace serve pool (w.others n)) (j : ℕ) :
    e.input.transactionId ≠ some (w.uniqid j) := by
  obtain ⟨before, after, split, -⟩ := mem_trace serve member
  exact w.foreign n e.input (by simp [split]) j

theorem trace_served (n : ℕ) : trace serve emptyPool (w.served i data (n + 1)) =
    trace serve emptyPool (w.served i data n) ++
      event serve (w.pool i data n) (w.attempt i data n) ::
        trace serve (serve (w.pool i data n) (w.attempt i data n)).2 (w.others (n + 1)) := by
  rw [Interleaving.served, trace_append]
  rfl

/-- What carries one of the ids is an attempt, answered as the client sees it. -/
theorem own_event {n j : ℕ} {e : ServerEvent (Option δ)}
    (member : e ∈ trace serve emptyPool (w.served i data n))
    (own : e.input.transactionId = some (w.uniqid j)) :
    j < n ∧ e.reply = (w.turn i data j).response := by
  induction n with
  | zero => exact False.elim (foreign_event member j own)
  | succ n ih =>
    rw [trace_served] at member
    rcases List.mem_append.mp member with before | member
    · obtain ⟨less, reply⟩ := ih before
      exact ⟨by omega, reply⟩
    · rcases List.mem_cons.mp member with rfl | after
      · have same : n = j := w.distinct (Option.some.inj own)
        subst same
        exact ⟨by omega, rfl⟩
      · exact False.elim (foreign_event after j own)

/-- Before an attempt whose predecessors were refused, no id of the call was
granted the reservation. -/
theorem not_granted_before {n : ℕ} (refused : ∀ j < n, Refused (w.turn i data j).response)
    {e : ServerEvent (Option δ)} (member : e ∈ trace serve emptyPool (w.served i data n))
    (granted : GrantedGet e) (j : ℕ) : e.input.transactionId ≠ some (w.uniqid j) := by
  intro own
  obtain ⟨less, reply⟩ := own_event member own
  have success : Success (w.turn i data j).response := reply ▸ granted.2
  exact (Turn.refused_iff _).mp (refused j less) success

/-- Who holds an entry was granted it. -/
theorem granted_of_reservedBy {qs : List (Request δ)} {k : Bytes} {t : Option Bytes}
    (held : ReservedBy (final serve emptyPool qs) k t) :
    ∃ e ∈ trace serve emptyPool qs, GrantedGet e ∧ e.input.transactionId = t := by
  obtain ⟨r, present, reserved, rfl⟩ := held
  obtain ⟨-, ⟨-, pre, g, mid, split, granted, -⟩ | idle⟩ := represented_run qs k r present
  · have member : g ∈ eventsFor k (trace serve emptyPool qs) := by
      rw [split]
      exact List.mem_append_right _ List.mem_cons_self
    exact ⟨g, (mem_eventsFor.mp member).1, granted⟩
  · exact absurd (reserved.symm.trans idle.reserved) (by decide)

/-- Attempt `n` is the only one of the call that was granted the reservation, and
nothing of the call comes after it; its id is kept and handed out. -/
structure TakenOnce (w : Interleaving δ) (i : ResourceIdentifierImpl) (data : δ) (n : ℕ)
    (response : ResponseWrapperImpl (Option δ)) (client : ClientImpl δ) : Prop where
  once : ∃ earlier e later,
    trace serve emptyPool (w.served i data (n + 1)) = earlier ++ e :: later ∧
      (GrantedGet e ∧ e.input.transactionId = some (w.uniqid n)) ∧
      (∀ e' ∈ earlier, GrantedGet e' → ∀ j, e'.input.transactionId ≠ some (w.uniqid j)) ∧
      ∀ e' ∈ later, ∀ j, e'.input.transactionId ≠ some (w.uniqid j)
  kept : client.token = some (some (w.uniqid n))
  handed : ∃ r, response.resource = some r ∧ r.transactionId = some (w.uniqid n)

/-- After attempt `n` no id of the call was granted the reservation, and none
holds it. -/
structure NeverTaken (w : Interleaving δ) (i : ResourceIdentifierImpl) (data : δ) (n : ℕ) :
    Prop where
  refused : ∀ e ∈ trace serve emptyPool (w.served i data (n + 1)), GrantedGet e →
    ∀ j, e.input.transactionId ≠ some (w.uniqid j)
  unreserved : ∀ k j,
    ¬ ReservedBy (final serve emptyPool (w.served i data (n + 1))) k (some (w.uniqid j))

theorem takenOnce_of_success {n : ℕ} (before : ∀ j < n, Refused (w.turn i data j).response)
    (success : Success (w.turn i data n).response) {client : ClientImpl δ}
    (kept : client.token = some (some (w.uniqid n))) :
    TakenOnce w i data n (w.turn i data n).response client where
  once := by
    refine ⟨_, _, _, trace_served n, ⟨⟨rfl, success⟩, rfl⟩, ?_, ?_⟩
    · intro e member granted
      exact not_granted_before before member granted
    · intro e member
      exact foreign_event member
  kept := kept
  handed := by
    obtain ⟨r, -, -, handed, -⟩ := get_granted (q := w.attempt i data n) rfl success
    exact ⟨_, handed, rfl⟩

theorem neverTaken_of_refused {n : ℕ} (refused : ∀ j ≤ n, Refused (w.turn i data j).response) :
    NeverTaken w i data n := by
  have never : ∀ e ∈ trace serve emptyPool (w.served i data (n + 1)), GrantedGet e →
      ∀ j, e.input.transactionId ≠ some (w.uniqid j) := by
    intro e member granted
    exact not_granted_before (fun j hj => refused j (by omega)) member granted
  refine ⟨never, ?_⟩
  intro k j held
  obtain ⟨e, member, granted, own⟩ := granted_of_reservedBy held
  exact never e member granted j own

/-- A call of `get` ends with its attempt `n`. When it returns, the reservation
was granted to that attempt and to no other; when it throws, it was granted to
none. -/
theorem retried_get_takes_lock_once (php : Php) (w : Interleaving δ) (this : ClientImpl δ)
    (data : δ) (maxAttempt : ℤ) (delay : Delay php) :
    ∃ o n, (∀ fuel > maxAttempt.toNat,
        action (w.call this.resourceIdentifier data php maxAttempt delay) fuel this = some o) ∧
      wrappers o.effects = (List.range (n + 1)).map (fun j =>
        ⟨some (w.attempt this.resourceIdentifier data j).resource, IResourceHolder.get⟩) ∧
      ((∃ response, o.ending = .returned response ∧
          TakenOnce w this.resourceIdentifier data n response o.client) ∨
        (o.ending = .thrown (.exception (allAttemptsUsed php (.number (.int maxAttempt)))) ∧
          NeverTaken w this.resourceIdentifier data n)) := by
  let a := w.call this.resourceIdentifier data php maxAttempt delay
  have sleeps : a.delayAttempt.canSleep a.php = true := delay.valid
  rcases first_success_or_refused a.turn maxAttempt.toNat with found | refused
  · obtain ⟨m, within, success, before⟩ := found
    obtain ⟨o, ran, count, ending, -⟩ :=
      action_returns (a := a) this rfl sleeps within before success
    obtain ⟨n, count', kept, were⟩ := passes_get (a := a) rfl (ran _ (Nat.lt_succ_self _))
    have same : n = m := by omega
    subst same
    simp only [Nat.zero_add] at kept were
    exact ⟨o, n, ran, were, Or.inl ⟨_, ending, takenOnce_of_success before success kept⟩⟩
  · obtain ⟨o, ran, count, ending⟩ := action_throws (a := a) this rfl sleeps refused
    obtain ⟨n, count', -, were⟩ := passes_get (a := a) rfl (ran _ (Nat.lt_succ_self _))
    have same : n = maxAttempt.toNat := by omega
    subst same
    simp only [Nat.zero_add] at were
    exact ⟨o, _, ran, were, Or.inr ⟨ending, neverTaken_of_refused refused⟩⟩

end Taken

end RetriedGet
