import Anyem.IncrementThreads
import Anyem.Isolation
import Anyem.RetriedClosing

/-!
# One client that increments a variable

The loop of a client on a variable that nobody else uses meanwhile, with the
whole retry loop of every `get`; the server takes requests for other variables
in between. A variable that is free at first is got with the first attempt of
every iteration. One that somebody has left reserved stays so, and the loop
only uses its attempts up.
-/

namespace SoleClient

open ReplyMachine Resource ResourceHolder ResourceManager PoolCells Reservations Client PhpValues
  RetryLoop RetriedGet RetriedClosing IncrementThreads

variable {δ : Type}

/-- What the server takes right before each request of the client, its clock
then, and the strings of `uniqid`. -/
structure Surroundings (δ : Type) where
  uniqid : ℕ → Bytes
  clock : ℕ → Clock
  others : ℕ → List (Request (Option δ))

/-- The test between two calls: how many requests the client has sent, and `$a`. -/
structure State (δ : Type) where
  made : ℕ
  pool : Pool (Option δ)
  client : ClientImpl δ
  a : δ

section Loop

variable (test : Test δ) (php : Php) (delay : Delay php) (w : Surroundings δ)

/-- The attempts of `get`. -/
def getting (s : State δ) : Attempts δ where
  found := s.pool
  others := fun n => w.others (s.made + n)
  request := fun n => Request.build IResourceHolder.get s.client.resourceIdentifier
    (w.uniqid (s.made + n)) (some s.a) (w.clock (s.made + n))
  uniqid := fun n => w.uniqid (s.made + n)

/-- `put`, whose response nobody looks at. There is no result when something is
thrown that the test does not catch. -/
def putting (s : State δ) : Option (State δ) :=
  match ClientImpl.put (some s.a) s.client with
  | .error _ _ => none
  | .ok wrapper client =>
    match manageWrapper (some wrapper) (w.clock s.made)
        (final serve s.pool (w.others s.made)) with
    | .error _ _ => none
    | .ok _ pool => some ⟨s.made + 1, pool, client, s.a⟩

/-- What the attempts of `get` leave. -/
def tried (s : State δ) (o : RetryLoop.Outcome δ) : State δ :=
  let sent := (wrappers o.effects).length
  ⟨s.made + sent, (getting w s).after (sent - 1), o.client, s.a⟩

/-- How the loop goes on behind `get`. -/
def resume (s : State δ) : Ending δ → Option (State δ)
  | .returned response =>
    match response.resource with
    | some r => putting w { s with a := test.increment r.data }
    | none => none
  | .thrown (.exception _) => some s
  | .thrown (.memberCall _) => none
  | .notNumber => none

def iteration (s : State δ) : Option (State δ) :=
  (action ((getting w s).call (.get s.a) php test.maxAttempt delay)
    (test.maxAttempt.toNat + 1) s.client).bind fun o => resume test w (tried w s o) o.ending

def iterations : ℕ → State δ → Option (State δ)
  | 0, s => some s
  | n + 1, s => (iteration test php delay w s).bind (iterations n)

def start (pool : Pool (Option δ)) : State δ := ⟨0, pool, ⟨test.identifier, none⟩, test.zero⟩

def testGetPut (pool : Pool (Option δ)) : Option (State δ) :=
  iterations test php delay w test.totalIteration (start test pool)

end Loop

section OneIteration

variable {test : Test δ} {php : Php} (delay : Delay php) {w : Surroundings δ} {s : State δ}

theorem final_elsewhere {pool : Pool (Option δ)} {qs : List (Request (Option δ))} {k : Bytes}
    (foreign : ∀ q ∈ qs, q.key ≠ k) : final serve pool qs k = pool k := by
  have none_here : (Isolation.keyed (δ := Option δ)).inputs k qs = [] := by
    refine List.filter_eq_nil_iff.mpr ?_
    intro q member here
    exact foreign q member (of_decide_eq_true here)
  have alone := (Isolation.keyed.run_alone (rfl : pool k = pool k) qs).2
  rw [none_here] at alone
  exact alone

/-- An iteration of which the attempts of `get` are known. -/
theorem iteration_of {o : RetryLoop.Outcome δ} {n : ℕ}
    (ran : ∀ fuel > test.maxAttempt.toNat,
      action ((getting w s).call (.get s.a) php test.maxAttempt delay) fuel s.client = some o)
    (were : wrappers o.effects = (List.range (n + 1)).map (getting w s).wrapper) :
    iteration test php delay w s =
      resume test w ⟨s.made + (n + 1), (getting w s).after n, o.client, s.a⟩ o.ending := by
  have sent : (wrappers o.effects).length = n + 1 := by
    rw [were, List.length_map, List.length_range]
  have left : tried w s o = ⟨s.made + (n + 1), (getting w s).after n, o.client, s.a⟩ := by
    simp only [tried, sent, Nat.add_sub_cancel]
  rw [iteration, ran _ (Nat.lt_succ_self _), Option.bind_some, left]

theorem getting_sent : (getting w s).Sent (.get s.a) fun this =>
    this.resourceIdentifier = s.client.resourceIdentifier := by
  intro n this named
  obtain ⟨identifier, resource⟩ := this
  cases named
  exact ⟨_, rfl, rfl⟩

/-- The client is left with the resource of its last attempt. -/
theorem getting_left {n : ℕ} {before client : ClientImpl δ}
    (named : before.resourceIdentifier = s.client.resourceIdentifier)
    (left : (AnyemCall.get s.a).call.run ((getting w s).uniqid n) before =
      .ok ((getting w s).wrapper n) client) :
    client = ⟨s.client.resourceIdentifier, some ((getting w s).request n).resource⟩ := by
  obtain ⟨identifier, resource⟩ := before
  cases named
  cases left
  rfl

/-- Nobody holds the variable, and what the loop offers for a missing one is 0. -/
structure Free (test : Test δ) (s : State δ) : Prop where
  identified : s.client.resourceIdentifier = test.identifier
  free : ∀ t, ¬ ReservedBy s.pool (key test) t
  absent : s.pool (key test) = none → s.a = test.zero

/-- Only the client's own requests count for the entry of the variable. -/
def Undisturbed (test : Test δ) (w : Surroundings δ) : Prop :=
  ∀ n, ∀ q ∈ w.others n, q.key ≠ key test

theorem pool_start (undisturbed : Undisturbed test w) :
    (getting w s).pool 0 (key test) = s.pool (key test) :=
  final_elsewhere (undisturbed (s.made + 0))

theorem pool_next (undisturbed : Undisturbed test w) (n : ℕ) :
    (getting w s).pool (n + 1) (key test) = (getting w s).after n (key test) :=
  final_elsewhere (undisturbed (s.made + (n + 1)))

/-- A client that holds the variable puts the data and frees it. -/
theorem putting_held (undisturbed : Undisturbed test w) {r e : ResourceImpl (Option δ)}
    (identified : s.client.resourceIdentifier = test.identifier)
    (kept : s.client.resource = some r) (named : r.resourceIdentifier = some test.identifier)
    (present : s.pool (key test) = some e) (reserved : e.reserved = true)
    (own : e.transactionId = r.transactionId) :
    ∃ s', putting w s = some s' ∧ Free test s' ∧ s'.made = s.made + 1 ∧ s'.a = s.a ∧
      valueAt test s'.pool = some s.a := by
  obtain ⟨made, pool, ⟨identifier, resource⟩, a⟩ := s
  cases identified
  cases kept
  let q : Request (Option δ) :=
    ⟨IResourceHolder.put, { r with data := some a }, test.identifier, named, w.clock made⟩
  let found := final serve pool (w.others made)
  have ran : ClientImpl.put (some a) (⟨test.identifier, some r⟩ : ClientImpl δ) =
    .ok ⟨some q.resource, q.action⟩ ⟨test.identifier, some q.resource⟩ := rfl
  have served : manageWrapper (some ⟨some q.resource, q.action⟩) (w.clock made)
    (final serve pool (w.others made)) = .ok (serve found q).1 (serve found q).2 :=
      manageWrapper_serve found q
  have there : found q.key = some e := (final_elsewhere (undisturbed made)).trans present
  have granted : Success (serve found q).1 :=
    closing_granted ⟨e, there, reserved, own⟩ (Or.inl rfl)
  obtain ⟨e', -, -, -, -, left⟩ := put_granted (q := q) rfl granted
  refine ⟨⟨made + 1, (serve found q).2, ⟨test.identifier, some q.resource⟩, a⟩, ?_, ?_, rfl, rfl,
    ?_⟩
  · rw [putting, ran]
    simp only [served]
  · refine ⟨rfl, closing_frees (q := q) (Or.inl rfl) granted, ?_⟩
    intro missing
    cases left.symm.trans missing
  · have put : (serve found q).2 (key test) = _ := left
    simp only [valueAt, put]
    rfl

/-- A variable that is free is got with the first attempt, and is free again
after the `put` of its incremented data. -/
theorem iteration_free (undisturbed : Undisturbed test w) (free : Free test s) :
    ∃ s', iteration test php delay w s = some s' ∧ Free test s' ∧ s'.made = s.made + 2 ∧
      valueAt test s'.pool = incremented test (valueAt test s.pool) ∧
      some s'.a = valueAt test s'.pool := by
  let q := (getting w s).request 0
  have here : q.key = key test := congrArg mergedKey free.identified
  have start : (getting w s).pool 0 q.key = s.pool (key test) := by
    rw [here]
    exact pool_start undisturbed
  have success : Success ((getting w s).turn 0).response := by
    refine get_succeeds rfl ?_ rfl
    rintro t ⟨r, present, reserved⟩
    exact free.free t ⟨r, start.symm.trans present, reserved⟩
  obtain ⟨o, n, ran, were, ⟨before, named, left⟩, -, ends⟩ :=
    Attempts.call_ends php test.maxAttempt delay (getting_sent (s := s)) rfl
  have first : n = 0 := by
    by_contra later
    rcases ends with ⟨-, -, -, refused⟩ | ⟨-, -, -, refused⟩
    · exact refused 0 (by omega) success
    · exact refused 0 (by omega) success
  subst first
  have ending : o.ending = .returned ((getting w s).turn 0).response := by
    rcases ends with ⟨-, ending, -⟩ | ⟨-, -, -, refused⟩
    · exact ending
    · exact False.elim (refused 0 le_rfl success)
  have client : o.client = ⟨test.identifier, some q.resource⟩ := by
    rw [← free.identified]
    exact getting_left named left
  obtain ⟨r, found, -, carried, stays⟩ := get_granted (q := q) rfl success
  have data : r.data = valueAt test s.pool := by
    rw [start] at found
    rcases found with present | ⟨missing, rfl⟩
    · rw [valueAt, present]
    · rw [valueAt, missing]
      exact congrArg some (free.absent missing)
  obtain ⟨s', put, free', made, same, value⟩ := putting_held undisturbed (r := q.resource)
    (s := ⟨s.made + 1, (getting w s).after 0, o.client, test.increment r.data⟩)
    (by rw [client]) (by rw [client]) (congrArg some free.identified)
    (e := r.reservedBy q.transactionId q.clock) (by rw [← here]; exact stays) rfl rfl
  refine ⟨s', ?_, free', by omega, ?_, ?_⟩
  · have handed : ((getting w s).turn 0).response.resource = _ := carried
    rw [iteration_of delay ran were, ending]
    simp only [resume, handed]
    exact put
  · rw [value, data]
    rfl
  · rw [value, same]

/-- While the variable is reserved, an iteration uses all attempts up. -/
theorem iteration_reserved (undisturbed : Undisturbed test w) {t : Option Bytes}
    (identified : s.client.resourceIdentifier = test.identifier)
    (reserved : ReservedBy s.pool (key test) t) :
    ∃ s', iteration test php delay w s = some s' ∧
      s'.client.resourceIdentifier = test.identifier ∧
      s'.pool (key test) = s.pool (key test) ∧ s'.a = s.a ∧
      s'.made = s.made + (test.maxAttempt.toNat + 1) := by
  have here : ∀ n, ((getting w s).request n).key = key test :=
    fun n => congrArg mergedKey identified
  have refused_of : ∀ {n}, (getting w s).pool n (key test) = s.pool (key test) →
      ¬ Success ((getting w s).turn n).response := by
    intro n same
    obtain ⟨r, present, held⟩ := reserved
    exact get_refused ⟨r, by rw [here n, same]; exact present, held⟩ rfl
  have stays : ∀ n, (getting w s).pool n (key test) = s.pool (key test) := by
    intro n
    induction n with
    | zero => exact pool_start undisturbed
    | succ n ih =>
      rw [pool_next undisturbed, Attempts.after, refused_serve _ _ (refused_of ih)]
      exact ih
  obtain ⟨o, n, ran, were, ⟨before, named, left⟩, -, ends⟩ :=
    Attempts.call_ends php test.maxAttempt delay (getting_sent (s := s)) rfl
  rcases ends with ⟨-, -, success, -⟩ | ⟨rfl, kept, ending, -⟩
  · exact False.elim (refused_of (stays n) success)
  · refine ⟨⟨s.made + (test.maxAttempt.toNat + 1), (getting w s).after test.maxAttempt.toNat,
      o.client, s.a⟩, ?_, ?_, ?_, rfl, rfl⟩
    · rw [iteration_of delay ran were, ending]
      rfl
    · rw [getting_left named left]
      exact identified
    · rw [kept]
      exact stays _

end OneIteration

section AllIterations

variable {test : Test δ} {php : Php} (delay : Delay php) {w : Surroundings δ} {s : State δ}

theorem iterations_free (undisturbed : Undisturbed test w) (free : Free test s) (n : ℕ) :
    ∃ s', iterations test php delay w n s = some s' ∧ Free test s' ∧ s'.made = s.made + 2 * n ∧
      valueAt test s'.pool = (incremented test)^[n] (valueAt test s.pool) ∧
      (0 < n ∨ some s.a = valueAt test s.pool → some s'.a = valueAt test s'.pool) := by
  induction n generalizing s with
  | zero =>
    refine ⟨s, rfl, free, rfl, rfl, ?_⟩
    rintro (none_left | same)
    · omega
    · exact same
  | succ n ih =>
    obtain ⟨s₁, ran₁, free₁, made₁, value₁, same₁⟩ := iteration_free delay undisturbed free
    obtain ⟨s', ran', free', made', value', same'⟩ := ih free₁
    refine ⟨s', ?_, free', by omega, ?_, fun _ => same' (Or.inr same₁)⟩
    · rw [iterations, ran₁]
      exact ran'
    · rw [value', value₁, Function.iterate_succ_apply]

theorem iterations_reserved (undisturbed : Undisturbed test w) {t : Option Bytes}
    (identified : s.client.resourceIdentifier = test.identifier)
    (reserved : ReservedBy s.pool (key test) t) (n : ℕ) :
    ∃ s', iterations test php delay w n s = some s' ∧ s'.pool (key test) = s.pool (key test) ∧
      s'.a = s.a ∧ s'.made = s.made + n * (test.maxAttempt.toNat + 1) := by
  induction n generalizing s with
  | zero => exact ⟨s, rfl, rfl, rfl, by omega⟩
  | succ n ih =>
    obtain ⟨s₁, ran₁, identified₁, kept₁, same₁, made₁⟩ :=
      iteration_reserved delay undisturbed identified reserved
    have reserved₁ : ReservedBy s₁.pool (key test) t := by
      obtain ⟨r, present, held⟩ := reserved
      exact ⟨r, kept₁.trans present, held⟩
    obtain ⟨s', ran', kept', same', made'⟩ := ih identified₁ reserved₁
    refine ⟨s', ?_, kept'.trans kept₁, same'.trans same₁, ?_⟩
    · rw [iterations, ran₁]
      exact ran'
    · rw [made', made₁, Nat.succ_mul]
      omega

theorem counted_up {num : ℤ → δ} {first : ℤ} {n : ℕ} (adds : ∀ m : ℕ, m < n →
      test.increment (some (num (first + m))) = num (first + m + 1)) :
    (incremented test)^[n] (some (num first)) = some (num (first + n)) := by
  induction n with
  | zero => simp
  | succ n ih =>
    have before := ih fun m less => adds m (by omega)
    rw [Function.iterate_succ_apply', before, incremented, adds n (by omega)]
    congr 2
    omega

end AllIterations

end SoleClient
