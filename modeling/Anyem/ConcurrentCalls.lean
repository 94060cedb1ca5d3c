import Anyem.AtomicObjects
import Anyem.Finishing

/-!
# Overlapping calls are linearizable

The calls of any number of clients overlap, and a call may go around many times
and send a request each time. Seen from the clients, every call is one attempt
at one moment between its start and its return: a refused attempt leaves the
pool, and what it leaves in the client does not change the next one.
-/

namespace ConcurrentCalls

open AtomicObjects ThrowingMethods Resource ResourceHolder ResourceManager PoolCells Client
  Finishing

variable {C δ : Type}

/-- What a call ends with. To give up is to throw that all attempts are used. -/
inductive Outcome (δ : Type) where
  | returned (response : ResponseWrapperImpl (Option δ))
  | gaveUp
  | threw (ex : Throwable)

/-- What a call ends with on the response to its last attempt. -/
def finish (invocation : Invocation δ) (response : ResponseWrapperImpl (Option δ)) : Outcome δ :=
  if invocation.maxAttempt.isSome ∧
      response.responseCode.getD 0 ≠ IResponseWrapper.successResponseCode then .gaveUp
  else .returned response

theorem finish_success {invocation : Invocation δ} {response : ResponseWrapperImpl (Option δ)}
    (success : Success response) : finish invocation response = .returned response := by
  have code : response.responseCode = some IResponseWrapper.successResponseCode := success
  simp [finish, code]

theorem finish_refused {call : Call δ} {maxAttempt : ℤ}
    {response : ResponseWrapperImpl (Option δ)} (refused : Refused response) :
    finish ⟨call, some maxAttempt⟩ response = .gaveUp := by
  have code : response.responseCode = some IResponseWrapper.errorResponseCode := refused
  rw [finish, code]
  rfl

theorem finish_once (call : Call δ) (response : ResponseWrapperImpl (Option δ)) :
    finish ⟨call, none⟩ response = .returned response := by
  simp [finish]

abbrev Seen (C δ : Type) := Option (C × Event (Invocation δ) (Outcome δ))

section Central

variable [DecidableEq C]

/-- The pool and the clients, without requests under way, and which strings
`uniqid` has given out. -/
structure Central (C δ : Type) where
  pool : Pool (Option δ)
  client : C → ClientImpl δ
  used : Set ℕ

/-- New clients of a server with the pool. -/
def Central.start (pool : Pool (Option δ)) (identifiers : C → ResourceIdentifierImpl) :
    Central C δ where
  pool := pool
  client := fun c => ⟨identifiers c, none⟩
  used := ∅

def atRest (pool : Pool (Option δ)) (identifiers : C → ResourceIdentifierImpl) : System C δ :=
  { System.start identifiers with pool := pool }

/-- A client makes a call, with one attempt, and nothing happens meanwhile. -/
inductive Alone (uniqid : ℕ → Bytes) (v : Central C δ) (c : C) (invocation : Invocation δ) :
    Outcome δ → Central C δ → Prop where
  | throws {n : ℕ} {ex : Throwable} {this : ClientImpl δ} (fresh : n ∉ v.used)
      (threw : invocation.call.run (uniqid n) (v.client c) = .error ex this) :
      Alone uniqid v c invocation (.threw ex)
        ⟨v.pool, Function.update v.client c this, insert n v.used⟩
  | served {n : ℕ} {wrapper : ResourceWrapper (Option δ)} {this : ClientImpl δ} {now : Clock}
      {response : ResponseWrapperImpl (Option δ)} {pool : Pool (Option δ)} (fresh : n ∉ v.used)
      (ran : invocation.call.run (uniqid n) (v.client c) = .ok wrapper this)
      (answered : manageWrapper (some wrapper) now v.pool = .ok response pool) :
      Alone uniqid v c invocation (finish invocation response)
        ⟨pool, Function.update v.client c this, insert n v.used⟩

/-- A call alone, when the request that it sends is known. -/
theorem Alone.request {uniqid : ℕ → Bytes} {v v' : Central C δ} {c : C} {invocation : Invocation δ}
    {o : Outcome δ} (now : Alone uniqid v c invocation o v')
    (request : ℕ → Clock → Request (Option δ)) (left : ℕ → ClientImpl δ)
    (clocked : ∀ n clock, (request n clock).clock = clock)
    (sends : ∀ n clock, invocation.call.run (uniqid n) (v.client c) =
      .ok ⟨some (request n clock).resource, (request n clock).action⟩ (left n)) :
    ∃ n clock, o = finish invocation (serve v.pool (request n clock)).1 ∧
      v' = ⟨(serve v.pool (request n clock)).2, Function.update v.client c (left n),
        insert n v.used⟩ := by
  cases now with
  | @throws n ex this fresh threw => cases threw.symm.trans (sends n ⟨[], []⟩)
  | @served n wrapper this clock response pool fresh ran answered =>
    cases ran.symm.trans (sends n clock)
    have served := manageWrapper_serve v.pool (request n clock)
    rw [clocked] at served
    cases served.symm.trans answered
    exact ⟨n, clock, rfl, rfl⟩

/-- The steps of the system, with what is seen of the calls. -/
inductive Labelled (uniqid : ℕ → Bytes) : System C δ → Seen C δ → System C δ → Prop where
  | beginCall (s : System C δ) (c : C) (invocation : Invocation δ) (idle : s.control c = .idle) :
      Labelled uniqid s (some (c, .invoke invocation)) (s.beginCall c invocation)
  | send (s : System C δ) (c : C) (invocation : Invocation δ)
      (attempting : s.control c = .attempting invocation)
      {wrapper : ResourceWrapper (Option δ)} {this : ClientImpl δ}
      (ran : invocation.call.run (uniqid s.made) (s.client c) = .ok wrapper this) :
      Labelled uniqid s none (s.send uniqid c invocation)
  | throws (s : System C δ) (c : C) (invocation : Invocation δ)
      (attempting : s.control c = .attempting invocation) {ex : Throwable} {this : ClientImpl δ}
      (threw : invocation.call.run (uniqid s.made) (s.client c) = .error ex this) :
      Labelled uniqid s (some (c, .respond (.threw ex))) (s.send uniqid c invocation)
  | serve (s : System C δ) (c : C) (invocation : Invocation δ)
      (wrapper : ResourceWrapper (Option δ)) (now : Clock) (up : s.up = true)
      (waiting : s.control c = .waiting invocation wrapper) :
      Labelled uniqid s none (s.serveClient c invocation wrapper now)
  | goesOn (s : System C δ) (c : C) (invocation : Invocation δ)
      (response : ResponseWrapperImpl (Option δ))
      (answered : s.control c = .answered invocation response) {next : Invocation δ}
      (more : invocation.again response = some next) :
      Labelled uniqid s none (s.receive c invocation response)
  | returns (s : System C δ) (c : C) (invocation : Invocation δ)
      (response : ResponseWrapperImpl (Option δ))
      (answered : s.control c = .answered invocation response)
      (last : invocation.again response = none) :
      Labelled uniqid s (some (c, .respond (finish invocation response)))
        (s.receive c invocation response)

/-- These are the steps of the system, when any call may begin. -/
theorem labelled_iff (uniqid : ℕ → Bytes) (s s' : System C δ) :
    (∃ seen, Labelled uniqid s seen s') ↔ Step uniqid (fun _ _ _ => True) s s' := by
  constructor
  · rintro ⟨seen, step⟩
    cases step with
    | beginCall c invocation idle => exact .beginCall s c invocation idle trivial
    | send c invocation attempting ran => exact .send s c invocation attempting
    | throws c invocation attempting threw => exact .send s c invocation attempting
    | serve c invocation wrapper now up waiting => exact .serve s c invocation wrapper now up waiting
    | goesOn c invocation response answered more => exact .receive s c invocation response answered
    | returns c invocation response answered last => exact .receive s c invocation response answered
  · intro step
    cases step with
    | beginCall c invocation idle => exact ⟨_, .beginCall s c invocation idle⟩
    | send c invocation attempting =>
      cases ran : invocation.call.run (uniqid s.made) (s.client c) with
      | ok wrapper this => exact ⟨_, .send s c invocation attempting ran⟩
      | error ex this => exact ⟨_, .throws s c invocation attempting ran⟩
    | serve c invocation wrapper now up waiting =>
      exact ⟨_, .serve s c invocation wrapper now up waiting⟩
    | receive c invocation response answered =>
      cases more : invocation.again response with
      | none => exact ⟨_, .returns s c invocation response answered more⟩
      | some next => exact ⟨_, .goesOn s c invocation response answered more⟩

end Central

section Attempts

/-- A second attempt of a call does what the first one would have done now. -/
theorem run_again {call : Call δ} {text : Bytes} {this this' : ClientImpl δ}
    {wrapper : ResourceWrapper (Option δ)} (ran : call.run text this = .ok wrapper this')
    (text' : Bytes) : call.run text' this' = call.run text' this := by
  cases call with
  | get data | read | delete =>
    cases ran
    rfl
  | release =>
    cases ran
    rfl
  | put data =>
    cases kept : this.resource with
    | none =>
      have threw := onPart_none ClientImpl.resource kept
        (fun r this => { this with resource := some r }) (Throwable.memberCall (ascii "setData"))
        (ResourceImpl.setData data)
      have failed := bind_error threw fun _ => ClientImpl.execute IResourceHolder.put
      cases ran.symm.trans failed
    | some r =>
      cases this
      cases kept
      cases ran
      rfl

/-- A response after which a call goes around again is no `SUCCESS`. -/
theorem not_success_of_again {invocation next : Invocation δ}
    {response : ResponseWrapperImpl (Option δ)} (more : invocation.again response = some next) :
    ¬ Success response := by
  intro success
  rw [Invocation.again_success invocation success] at more
  cases more

theorem again_bounded {invocation next : Invocation δ} {response : ResponseWrapperImpl (Option δ)}
    (more : invocation.again response = some next) :
    next.maxAttempt.isSome = invocation.maxAttempt.isSome := by
  rw [Invocation.again] at more
  cases bound : invocation.maxAttempt with
  | none =>
    rw [bound] at more
    cases more
  | some ma =>
    simp only [bound] at more
    split at more
    · split at more
      · cases more
        rfl
      · cases more
    · cases more

/-- What is answered is a request, so a refusal leaves the pool. -/
theorem refused_pool {wrapper : ResourceWrapper (Option δ)} {now : Clock}
    {pool pool' : Pool (Option δ)} {response : ResponseWrapperImpl (Option δ)}
    (answered : manageWrapper (some wrapper) now pool = .ok response pool')
    (refused : ¬ Success response) : pool' = pool := by
  obtain ⟨resource, action⟩ := wrapper
  cases resource with
  | none => cases answered
  | some r =>
    cases identified : r.resourceIdentifier with
    | none =>
      have unbuilt : ResourceHolderImpl.construct pool action (some r) =
          .error (.memberCall (ascii "getUrl")) := by
        simp only [ResourceHolderImpl.construct, identified]
      simp only [manageWrapper, tryCatch_run, getAction, getResource, bind_run, pure_run,
        executeHolder, unbuilt, throw_run] at answered
      cases answered
    | some i =>
      have served := manageWrapper_serve pool ⟨action, r, i, identified, now⟩
      cases served.symm.trans answered
      exact refused_serve pool _ refused

end Attempts

section Simulation

/-- The same call, perhaps after some attempts. -/
def SameCall (i i' : Invocation δ) : Prop :=
  i'.call = i.call ∧ i'.maxAttempt.isSome = i.maxAttempt.isSome

/-- Where a client stands in the system, and where it stands when its calls are
single attempts. `kept` is the client object before the call, `this` after the
attempts so far, and `n` counts the `uniqid` of the last one. -/
def Stands (uniqid : ℕ → Bytes) (kept this : ClientImpl δ) (n : ℕ) :
    Stage (Invocation δ) (Outcome δ) → Control δ → Prop
  | .idle, .idle => this = kept
  | .invoked i, .attempting i' =>
    SameCall i i' ∧ ∀ text, i.call.run text this = i.call.run text kept
  | .invoked i, .waiting i' wrapper =>
    SameCall i i' ∧ i.call.run (uniqid n) kept = .ok wrapper this
  | .invoked i, .answered i' response =>
    SameCall i i' ∧ i'.again response ≠ none ∧
      ∀ text, i.call.run text this = i.call.run text kept
  | .done o, .answered i' response =>
    i'.again response = none ∧ o = finish i' response ∧ this = kept
  | _, _ => False

def Waits : Control δ → Prop
  | .waiting _ _ => True
  | _ => False

/-- The system, and the calls as single attempts. -/
structure Represents (uniqid : ℕ → Bytes) (s : System C δ)
    (stage : C → Stage (Invocation δ) (Outcome δ)) (v : Central C δ) (ticket : C → ℕ) :
    Prop where
  pool : s.up = true → v.pool = s.pool
  stands : ∀ c, Stands uniqid (v.client c) (s.client c) (ticket c) (stage c) (s.control c)
  used : ∀ n ∈ v.used, n < s.made
  fresh : ∀ c, Waits (s.control c) → ticket c < s.made ∧ ticket c ∉ v.used
  distinct : ∀ c c', Waits (s.control c) → Waits (s.control c') → ticket c = ticket c' → c = c'

variable {uniqid : ℕ → Bytes} {kept this : ClientImpl δ} {n : ℕ}
  {st : Stage (Invocation δ) (Outcome δ)} {i' : Invocation δ}

theorem Stands.idle (stands : Stands uniqid kept this n st .idle) : st = .idle ∧ this = kept := by
  cases st with
  | idle => exact ⟨rfl, stands⟩
  | invoked i => exact stands.elim
  | done o => exact stands.elim

theorem Stands.attempting (stands : Stands uniqid kept this n st (.attempting i')) :
    ∃ i, st = .invoked i ∧ SameCall i i' ∧
      ∀ text, i.call.run text this = i.call.run text kept := by
  cases st with
  | idle => exact stands.elim
  | invoked i => exact ⟨i, rfl, stands⟩
  | done o => exact stands.elim

theorem Stands.waiting {wrapper : ResourceWrapper (Option δ)}
    (stands : Stands uniqid kept this n st (.waiting i' wrapper)) :
    ∃ i, st = .invoked i ∧ SameCall i i' ∧ i.call.run (uniqid n) kept = .ok wrapper this := by
  cases st with
  | idle => exact stands.elim
  | invoked i => exact ⟨i, rfl, stands⟩
  | done o => exact stands.elim

theorem Stands.goesOn {response : ResponseWrapperImpl (Option δ)} {next : Invocation δ}
    (stands : Stands uniqid kept this n st (.answered i' response))
    (more : i'.again response = some next) :
    ∃ i, st = .invoked i ∧ SameCall i i' ∧
      ∀ text, i.call.run text this = i.call.run text kept := by
  cases st with
  | idle => exact stands.elim
  | invoked i => exact ⟨i, rfl, stands.1, stands.2.2⟩
  | done o => cases more.symm.trans stands.1

theorem Stands.returns {response : ResponseWrapperImpl (Option δ)}
    (stands : Stands uniqid kept this n st (.answered i' response))
    (last : i'.again response = none) :
    st = .done (finish i' response) ∧ this = kept := by
  cases st with
  | idle => exact stands.elim
  | invoked i => exact False.elim (stands.2.1 last)
  | done o =>
    obtain ⟨-, rfl, same⟩ := stands
    exact ⟨rfl, same⟩

theorem SameCall.finish {i i' : Invocation δ} (same : SameCall i i')
    (response : ResponseWrapperImpl (Option δ)) : finish i' response = finish i response := by
  rw [ConcurrentCalls.finish, ConcurrentCalls.finish, same.2]

variable [DecidableEq C]

/-- A step of one client leaves where the others stand. -/
theorem stands_update {keeps keeps' client client' : C → ClientImpl δ} {ticket ticket' : C → ℕ}
    {stage : C → Stage (Invocation δ) (Outcome δ)} {control : C → Control δ} {c : C}
    {next : Stage (Invocation δ) (Outcome δ)} {there : Control δ}
    (stands : ∀ c, Stands uniqid (keeps c) (client c) (ticket c) (stage c) (control c))
    (here : Stands uniqid (keeps' c) (client' c) (ticket' c) next there)
    (others : ∀ c', c' ≠ c →
      keeps' c' = keeps c' ∧ client' c' = client c' ∧ ticket' c' = ticket c') (c' : C) :
    Stands uniqid (keeps' c') (client' c') (ticket' c') (Function.update stage c next c')
      (Function.update control c there c') := by
  by_cases same : c' = c
  · subst same
    rw [Function.update_self, Function.update_self]
    exact here
  · obtain ⟨sameKept, sameClient, sameTicket⟩ := others c' same
    rw [Function.update_of_ne same, Function.update_of_ne same, sameKept, sameClient, sameTicket]
    exact stands c'

/-- Who waits after a step of `c` that does not wait. -/
theorem waits_update {control : C → Control δ} {c c' : C} {there : Control δ}
    (moves : ¬ Waits there) (waits : Waits (Function.update control c there c')) :
    c' ≠ c ∧ Waits (control c') := by
  by_cases same : c' = c
  · subst same
    rw [Function.update_self] at waits
    exact False.elim (moves waits)
  · rw [Function.update_of_ne same] at waits
    exact ⟨same, waits⟩

variable {s : System C δ} {stage : C → Stage (Invocation δ) (Outcome δ)} {v : Central C δ}
  {ticket : C → ℕ} {c : C}

/-- One client stops waiting, or does not wait. -/
theorem Represents.moves (represents : Represents uniqid s stage v ticket) (c : C)
    (next : Stage (Invocation δ) (Outcome δ)) {there : Control δ} (waitless : ¬ Waits there)
    (here : Stands uniqid (v.client c) (s.client c) (ticket c) next there) :
    Represents uniqid { s with control := Function.update s.control c there }
      (Function.update stage c next) v ticket where
  pool := represents.pool
  stands := stands_update represents.stands here fun _ _ => ⟨rfl, rfl, rfl⟩
  used := represents.used
  fresh := fun c' waits => represents.fresh c' (waits_update waitless waits).2
  distinct := fun c₁ c₂ waits₁ waits₂ =>
    represents.distinct c₁ c₂ (waits_update waitless waits₁).2 (waits_update waitless waits₂).2

theorem Represents.sends (represents : Represents uniqid s stage v ticket)
    {invocation : Invocation δ} (attempting : s.control c = .attempting invocation)
    {wrapper : ResourceWrapper (Option δ)} {this : ClientImpl δ}
    (ran : invocation.call.run (uniqid s.made) (s.client c) = .ok wrapper this) :
    Represents uniqid (s.send uniqid c invocation) stage v
      (Function.update ticket c s.made) := by
  have stands := represents.stands c
  rw [attempting] at stands
  obtain ⟨i, stageHere, same, agrees⟩ := stands.attempting
  rw [same.1, agrees] at ran
  have sent : s.send uniqid c invocation = { s with
      client := Function.update s.client c this
      control := Function.update s.control c (.waiting invocation wrapper)
      made := s.made + 1 } := by
    rw [System.send, same.1, agrees, ran]
  rw [sent]
  have waits : ∀ c', Waits (Function.update s.control c (.waiting invocation wrapper) c') →
      c' ≠ c → Waits (s.control c') := by
    intro c' waits other
    rwa [Function.update_of_ne other] at waits
  refine ⟨represents.pool, ?_, ?_, ?_, ?_⟩
  · rw [← Function.update_eq_self c stage]
    refine stands_update represents.stands ?_ ?_
    · simp only [stageHere, Function.update_self]
      exact ⟨same, ran⟩
    · intro c' other
      exact ⟨rfl, Function.update_of_ne other .., Function.update_of_ne other ..⟩
  · intro n used
    exact Nat.lt_succ_of_lt (represents.used n used)
  · intro c' waiting
    by_cases here : c' = c
    · subst here
      rw [Function.update_self]
      exact ⟨Nat.lt_succ_self _, fun used => (represents.used _ used).false⟩
    · rw [Function.update_of_ne here]
      obtain ⟨before, fresh⟩ := represents.fresh c' (waits c' waiting here)
      exact ⟨Nat.lt_succ_of_lt before, fresh⟩
  · -- the new ticket is larger than those of the others
    have apart : ∀ c', c' ≠ c → Waits (Function.update s.control c (.waiting invocation wrapper) c')
        → ticket c' ≠ s.made := by
      intro c' other waiting
      exact (represents.fresh c' (waits c' waiting other)).1.ne
    intro c₁ c₂ waits₁ waits₂ sameTicket
    by_cases here₁ : c₁ = c <;> by_cases here₂ : c₂ = c
    · rw [here₁, here₂]
    · subst here₁
      rw [Function.update_self, Function.update_of_ne here₂] at sameTicket
      exact False.elim (apart c₂ here₂ waits₂ sameTicket.symm)
    · subst here₂
      rw [Function.update_self, Function.update_of_ne here₁] at sameTicket
      exact False.elim (apart c₁ here₁ waits₁ sameTicket)
    · rw [Function.update_of_ne here₁, Function.update_of_ne here₂] at sameTicket
      exact represents.distinct c₁ c₂ (waits c₁ waits₁ here₁) (waits c₂ waits₂ here₂) sameTicket

/-- A call that throws takes the string it was given with it. -/
theorem Represents.throws (represents : Represents uniqid s stage v ticket)
    {invocation : Invocation δ} {ex : Throwable} {this : ClientImpl δ}
    (threw : invocation.call.run (uniqid s.made) (s.client c) = .error ex this) :
    Represents uniqid (s.send uniqid c invocation) (Function.update stage c .idle)
      ⟨v.pool, Function.update v.client c this, insert s.made v.used⟩ ticket := by
  have sent : s.send uniqid c invocation = { s with
      client := Function.update s.client c this
      control := Function.update s.control c .idle
      made := s.made + 1 } := by
    rw [System.send, threw]
  rw [sent]
  have waits : ∀ c', Waits (Function.update s.control c .idle c') → Waits (s.control c') :=
    fun c' waiting => (waits_update (by exact id) waiting).2
  refine ⟨represents.pool, ?_, ?_, ?_, ?_⟩
  · refine stands_update represents.stands ?_ ?_
    · simp only [Function.update_self]
      exact rfl
    · intro c' other
      exact ⟨Function.update_of_ne other .., Function.update_of_ne other .., rfl⟩
  · intro n used
    rcases used with rfl | used
    · exact Nat.lt_succ_self _
    · exact Nat.lt_succ_of_lt (represents.used n used)
  · intro c' waiting
    obtain ⟨before, fresh⟩ := represents.fresh c' (waits c' waiting)
    refine ⟨Nat.lt_succ_of_lt before, ?_⟩
    rintro (new | used)
    · exact before.ne new
    · exact fresh used
  · intro c₁ c₂ waits₁ waits₂
    exact represents.distinct c₁ c₂ (waits c₁ waits₁) (waits c₂ waits₂)

/-- The last attempt of a call is served. -/
theorem Represents.serves (represents : Represents uniqid s stage v ticket)
    {invocation : Invocation δ} {wrapper : ResourceWrapper (Option δ)}
    (waiting : s.control c = .waiting invocation wrapper)
    {response : ResponseWrapperImpl (Option δ)} (last : invocation.again response = none)
    (pool : Pool (Option δ)) (taker : Bytes → Option C) (holding : C → Bool) :
    Represents uniqid { s with
        pool := pool
        control := Function.update s.control c (.answered invocation response)
        taker := taker
        holding := holding }
      (Function.update stage c (.done (finish invocation response)))
      ⟨pool, Function.update v.client c (s.client c), insert (ticket c) v.used⟩ ticket := by
  have waitsHere : Waits (s.control c) := by
    rw [waiting]
    trivial
  have waits : ∀ c', Waits (Function.update s.control c (.answered invocation response) c') →
      c' ≠ c ∧ Waits (s.control c') := fun c' => waits_update (by exact id)
  refine ⟨fun _ => rfl, ?_, ?_, ?_, ?_⟩
  · refine stands_update represents.stands ?_ ?_
    · simp only [Function.update_self]
      exact ⟨last, rfl, rfl⟩
    · intro c' other
      exact ⟨Function.update_of_ne other .., rfl, rfl⟩
  · intro n used
    rcases used with rfl | used
    · exact (represents.fresh c waitsHere).1
    · exact represents.used n used
  · intro c' waiting'
    obtain ⟨other, waiting'⟩ := waits c' waiting'
    obtain ⟨before, fresh⟩ := represents.fresh c' waiting'
    refine ⟨before, ?_⟩
    rintro (new | used)
    · exact other (represents.distinct c' c waiting' waitsHere new)
    · exact fresh used
  · intro c₁ c₂ waits₁ waits₂
    exact represents.distinct c₁ c₂ (waits c₁ waits₁).2 (waits c₂ waits₂).2

/-- Every step of the system is followed by the calls as single attempts. -/
theorem represents_step {s' : System C δ} {seen : Seen C δ}
    (represents : Represents uniqid s stage v ticket) (step : Labelled uniqid s seen s') :
    ∃ stage' v', Follows (Alone uniqid) stage v seen stage' v' ∧
      ∃ ticket', Represents uniqid s' stage' v' ticket' := by
  cases step with
  | beginCall c invocation idle =>
    have stands := represents.stands c
    rw [idle] at stands
    obtain ⟨stageHere, same⟩ := stands.idle
    refine ⟨_, v, .invoke invocation stageHere, ticket,
      represents.moves c (.invoked invocation) id ?_⟩
    refine ⟨⟨rfl, rfl⟩, ?_⟩
    intro text
    rw [same]
  | send c invocation attempting ran =>
    exact ⟨stage, v, .stay, _, represents.sends attempting ran⟩
  | @throws c invocation attempting ex this threw =>
    have stands := represents.stands c
    rw [attempting] at stands
    obtain ⟨i, stageHere, same, agrees⟩ := stands.attempting
    have alone : i.call.run (uniqid s.made) (v.client c) = .error ex this := by
      rw [← agrees, ← same.1, threw]
    refine ⟨_, _, .effectRespond stageHere (.throws ?_ alone), ticket, represents.throws threw⟩
    exact fun used => (represents.used _ used).false
  | serve c invocation wrapper now up waiting =>
    have stands := represents.stands c
    rw [waiting] at stands
    obtain ⟨i, stageHere, same, ran⟩ := stands.waiting
    have waitsHere : Waits (s.control c) := by
      rw [waiting]
      trivial
    cases answered : manageWrapper (some wrapper) now s.pool with
    | error ex pool =>
      -- the server ends, and the client waits for ever
      have ended : s.serveClient c invocation wrapper now =
          { s with pool := pool, up := false } := by
        rw [System.serveClient, answered]
      refine ⟨stage, v, .stay, ticket, ?_⟩
      rw [ended]
      exact ⟨(fun up => by cases up), represents.stands, represents.used, represents.fresh,
        represents.distinct⟩
    | ok response pool =>
      have served : s.serveClient c invocation wrapper now = { s with
          pool := pool
          control := Function.update s.control c (.answered invocation response)
          taker := s.tookNext c wrapper.action response
          holding := s.holdsNext c wrapper.action response } := by
        rw [System.serveClient, answered]
      rw [served]
      cases more : invocation.again response with
      | none =>
        have alone : Alone uniqid v c i (finish i response) _ :=
          .served (represents.fresh c waitsHere).2 ran (represents.pool up ▸ answered)
        rw [← same.finish response] at alone
        exact ⟨_, _, .effect stageHere alone, ticket, represents.serves waiting more _ _ _⟩
      | some next =>
        -- a refused attempt, of which nothing stays
        have unchanged : pool = s.pool := refused_pool answered (not_success_of_again more)
        subst unchanged
        have goesOn : invocation.again response ≠ none := by
          rw [more]
          exact Option.some_ne_none next
        have moved := represents.moves c (.invoked i)
          (show ¬ Waits (.answered invocation response) from id) ⟨same, goesOn, run_again ran⟩
        rw [← stageHere, Function.update_eq_self] at moved
        exact ⟨stage, v, .stay, ticket, ⟨moved.pool, moved.stands, moved.used, moved.fresh,
          moved.distinct⟩⟩
  | @goesOn c invocation response answered next more =>
    have stands := represents.stands c
    rw [answered] at stands
    obtain ⟨i, stageHere, same, agrees⟩ := stands.goesOn more
    have sameNext : SameCall i next :=
      ⟨(Invocation.again_call more).trans same.1, (again_bounded more).trans same.2⟩
    have moved := represents.moves c (.invoked i) (show ¬ Waits (.attempting next) from id)
      ⟨sameNext, agrees⟩
    rw [← stageHere, Function.update_eq_self] at moved
    refine ⟨stage, v, .stay, ticket, ?_⟩
    rw [System.receive, Control.after, more]
    exact moved
  | returns c invocation response answered last =>
    have stands := represents.stands c
    rw [answered] at stands
    obtain ⟨stageHere, same⟩ := stands.returns last
    refine ⟨_, v, .respond stageHere, ticket, ?_⟩
    rw [System.receive, Control.after, last]
    exact represents.moves c .idle id same

omit [DecidableEq C] in
theorem represents_start (pool : Pool (Option δ)) (identifiers : C → ResourceIdentifierImpl) :
    Represents uniqid (atRest pool identifiers) (fun _ => .idle)
      (Central.start pool identifiers) (fun _ => 0) where
  pool := fun _ => rfl
  stands := fun c => rfl
  used := by
    intro n used
    cases used
  fresh := by
    intro c waits
    cases waits
  distinct := by
    intro c c' waits
    cases waits

end Simulation

section Programs

variable {T : Type} [DecidableEq C] {uniqid : ℕ → Bytes} {s s' : System C δ} {seen : Seen C δ}
  {stage : C → Stage (Invocation δ) (Outcome δ)} {v : Central C δ} {ticket : C → ℕ}

/-- Whatever call is under way, it sends a resource with an identifier. -/
def Identifies (stage : C → Stage (Invocation δ) (Outcome δ)) (v : Central C δ) : Prop :=
  ∀ c i text wrapper this, stage c = .invoked i →
    i.call.run text (v.client c) = .ok wrapper this →
      ∃ r identifier, wrapper.resource = some r ∧ r.resourceIdentifier = some identifier

/-- Such calls do not end the server. -/
theorem up_step (up : s.up = true) (represents : Represents uniqid s stage v ticket)
    (identifies : Identifies stage v) (step : Labelled uniqid s seen s') : s'.up = true := by
  cases step with
  | beginCall c invocation idle => exact up
  | send c invocation attempting ran =>
    rw [System.send, ran]
    exact up
  | throws c invocation attempting threw =>
    rw [System.send, threw]
    exact up
  | goesOn c invocation response answered more => exact up
  | returns c invocation response answered last => exact up
  | serve c invocation wrapper now _ waiting =>
    have stands := represents.stands c
    rw [waiting] at stands
    obtain ⟨i, stageHere, -, ran⟩ := stands.waiting
    obtain ⟨r, identifier, carried, identified⟩ := identifies c i _ _ _ stageHere ran
    obtain ⟨resource, action⟩ := wrapper
    cases carried
    have served : manageWrapper (some ⟨some r, action⟩) now s.pool = _ :=
      manageWrapper_serve s.pool ⟨action, r, identifier, identified, now⟩
    rw [System.serveClient, served]
    exact up

/-- The server goes on, and `P` holds when the calls are single attempts. -/
def Tracks (uniqid : ℕ → Bytes)
    (P : (C → Stage (Invocation δ) (Outcome δ)) → Central C δ → (C → T) → Prop)
    (x : System C δ × (C → T)) : Prop :=
  x.1.up = true ∧ ∃ stage v, (∃ ticket, Represents uniqid x.1 stage v ticket) ∧ P stage v x.2

variable {P : (C → Stage (Invocation δ) (Outcome δ)) → Central C δ → (C → T) → Prop}
  {program : Program T (Invocation δ) (Outcome δ)} {x y : System C δ × (C → T)}

omit [DecidableEq C] in
theorem Tracks.start {pool : Pool (Option δ)} {identifiers : C → ResourceIdentifierImpl}
    {threads : C → T} (first : P (fun _ => .idle) (Central.start pool identifiers) threads) :
    Tracks uniqid P (atRest pool identifiers, threads) :=
  ⟨rfl, _, _, ⟨_, represents_start pool identifiers⟩, first⟩

/-- What single attempts keep is kept by the system. -/
theorem Tracks.step (identifies : ∀ {stage v threads}, P stage v threads → Identifies stage v)
    (keeps : ∀ {x y : ((C → Stage (Invocation δ) (Outcome δ)) × Central C δ) × (C → T)},
      P x.1.1 x.1.2 x.2 → program.Step (objectStep (Alone uniqid)) x y → P y.1.1 y.1.2 y.2)
    (tracks : Tracks uniqid P x) (step : program.Step (Labelled uniqid) x y) :
    Tracks uniqid P y := by
  obtain ⟨up, stage, v, ⟨ticket, represents⟩, here⟩ := tracks
  have stays : y.1.up = true := by
    cases step with
    | silent now => exact up_step up represents (identifies here) now
    | invoke asks now => exact up_step up represents (identifies here) now
    | respond now => exact up_step up represents (identifies here) now
  obtain ⟨stage', v', moves, represents'⟩ := Program.step_of_simulation
    (fun represents step => represents_step represents.choose_spec step) step ⟨ticket, represents⟩
  exact ⟨stays, stage', v', represents', keeps here moves⟩

end Programs

section Sample

def sampleIdentifier (_ : Bool) : ResourceIdentifierImpl :=
  ⟨ascii "anyem.com", ascii "anyemNameSpace", ascii "a"⟩

end Sample

end ConcurrentCalls
