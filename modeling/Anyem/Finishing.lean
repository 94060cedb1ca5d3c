import Anyem.Client
import Anyem.Reservations
import Mathlib.Logic.Relation

/-!
# Clients that finish what they reserved

Any number of clients make public calls, and their requests and the responses
are under way until the server or the client takes them. The token of a
reservation is kept in one field of the client, which `get`, `read` and
`delete` overwrite. Clients that only call `put` and `release` between a granted
`get` and the end of its reservation, and that call `release` only when they
have a resource, can always finish; the invariant is about clients and server.
-/

namespace Finishing

open ThrowingMethods Resource ResourceHolder ResourceManager PoolCells Reservations Client

variable {C δ : Type}

/-- Where a client stands in a call: about to run the method, waiting for its
request to be served, or for the response to be read. -/
inductive Control (δ : Type) where
  | idle
  | attempting (invocation : Invocation δ)
  | waiting (invocation : Invocation δ) (wrapper : ResourceWrapper (Option δ))
  | answered (invocation : Invocation δ) (response : ResponseWrapperImpl (Option δ))

/-- After a response the call goes around again or ends. -/
def Control.after (invocation : Invocation δ) (response : ResponseWrapperImpl (Option δ)) :
    Control δ :=
  match invocation.again response with
  | none => .idle
  | some next => .attempting next

/-- The server process, the clients, and how often `uniqid` was called. Beside
them stand which client's `get` took a key last, and who has a `get` granted
and neither `put` nor `release` after it. -/
structure System (C δ : Type) where
  pool : Pool (Option δ)
  up : Bool
  client : C → ClientImpl δ
  control : C → Control δ
  made : ℕ
  taker : Bytes → Option C
  holding : C → Bool

namespace System

def start (identifiers : C → ResourceIdentifierImpl) : System C δ where
  pool := emptyPool
  up := true
  client := fun c => ⟨identifiers c, none⟩
  control := fun _ => .idle
  made := 0
  taker := fun _ => none
  holding := fun _ => false

/-- The key of a client's variable. -/
def key (s : System C δ) (c : C) : Bytes := mergedKey (s.client c).resourceIdentifier

variable [DecidableEq C]

def beginCall (s : System C δ) (c : C) (invocation : Invocation δ) : System C δ :=
  { s with control := Function.update s.control c (.attempting invocation) }

/-- Run the method up to the write. A throw ends the call. -/
def send (uniqid : ℕ → Bytes) (s : System C δ) (c : C) (invocation : Invocation δ) :
    System C δ :=
  match invocation.call.run (uniqid s.made) (s.client c) with
  | .ok wrapper this => { s with
      client := Function.update s.client c this
      control := Function.update s.control c (.waiting invocation wrapper)
      made := s.made + 1 }
  | .error _ this => { s with
      client := Function.update s.client c this
      control := Function.update s.control c .idle
      made := s.made + 1 }

/-- Who took a key last, after a reply to `c`. -/
def tookNext (s : System C δ) (c : C) (action : Bytes)
    (response : ResponseWrapperImpl (Option δ)) : Bytes → Option C :=
  if action = IResourceHolder.get ∧ Success response then
    Function.update s.taker (s.key c) (some c)
  else s.taker

/-- Who has a reservation to finish, after a reply to `c`. -/
def holdsNext (s : System C δ) (c : C) (action : Bytes)
    (response : ResponseWrapperImpl (Option δ)) : C → Bool :=
  if action = IResourceHolder.get ∧ Success response then Function.update s.holding c true
  else if Closing action ∧ Success response then Function.update s.holding c false
  else s.holding

/-- The server takes the request. An uncaught throw ends the server. -/
def serveClient (s : System C δ) (c : C) (invocation : Invocation δ)
    (wrapper : ResourceWrapper (Option δ)) (now : Clock) : System C δ :=
  match manageWrapper (some wrapper) now s.pool with
  | .ok response pool => { s with
      pool := pool
      control := Function.update s.control c (.answered invocation response)
      taker := s.tookNext c wrapper.action response
      holding := s.holdsNext c wrapper.action response }
  | .error _ pool => { s with pool := pool, up := false }

/-- The client reads the response. -/
def receive (s : System C δ) (c : C) (invocation : Invocation δ)
    (response : ResponseWrapperImpl (Option δ)) : System C δ :=
  { s with control := Function.update s.control c (.after invocation response) }

end System

section Steps

variable [DecidableEq C]

/-- One step of the system, in which the calls that may begin are given. -/
inductive Step (uniqid : ℕ → Bytes) (mayBegin : System C δ → C → Call δ → Prop) :
    System C δ → System C δ → Prop where
  | beginCall (s : System C δ) (c : C) (invocation : Invocation δ) (idle : s.control c = .idle)
      (allowed : mayBegin s c invocation.call) :
      Step uniqid mayBegin s (s.beginCall c invocation)
  | send (s : System C δ) (c : C) (invocation : Invocation δ)
      (attempting : s.control c = .attempting invocation) :
      Step uniqid mayBegin s (s.send uniqid c invocation)
  | serve (s : System C δ) (c : C) (invocation : Invocation δ)
      (wrapper : ResourceWrapper (Option δ)) (now : Clock) (up : s.up = true)
      (waiting : s.control c = .waiting invocation wrapper) :
      Step uniqid mayBegin s (s.serveClient c invocation wrapper now)
  | receive (s : System C δ) (c : C) (invocation : Invocation δ)
      (response : ResponseWrapperImpl (Option δ))
      (answered : s.control c = .answered invocation response) :
      Step uniqid mayBegin s (s.receive c invocation response)

end Steps

/-- Nobody deletes the variable `k`. -/
def Undeleted (k : Bytes) (s : System C δ) (c : C) (call : Call δ) : Prop :=
  s.key c = k → call ≠ .delete

/-- Nobody deletes `k`, who holds `k` calls only `put` and `release`, and nobody
calls `release` without a resource. -/
def Disciplined (k : Bytes) (s : System C δ) (c : C) (call : Call δ) : Prop :=
  Undeleted k s c call ∧ (s.key c = k → s.holding c = true → call.Closes) ∧
    (call = .release → (s.client c).resource ≠ none)

/-- A client with a reservation of `k` can finish it: its `put` and `release`
get to the server, and are answered `SUCCESS` there; and the token of a
reserved entry is the one that its taker keeps. -/
structure Finishes (uniqid : ℕ → Bytes) (k : Bytes) (s : System C δ) : Prop where
  sent : ∀ c invocation, s.key c = k → s.holding c = true →
    s.control c = .attempting invocation → invocation.call.Closes →
    ∃ wrapper this, invocation.call.run (uniqid s.made) (s.client c) = .ok wrapper this
  answered : ∀ c invocation wrapper now, s.key c = k → s.holding c = true →
    s.control c = .waiting invocation wrapper → invocation.call.Closes →
    s.up = true ∧ ∃ response pool,
      manageWrapper (some wrapper) now s.pool = .ok response pool ∧ Success response
  kept : ∀ t, ReservedBy s.pool k t → ∃ c, s.taker k = some c ∧ (s.client c).token = some t

section Invariant

/-- What is known about a client's call on its own. -/
structure Proper (k : Bytes) (this : ClientImpl δ) (call : Call δ) : Prop where
  equipped : call = .release → this.resource ≠ none
  undeleted : mergedKey this.resourceIdentifier = k → call ≠ .delete

/-- The call of a client agrees with what it keeps, and a client with a
reservation of `k` to finish is not in a call that would lose it. -/
def Agrees (k : Bytes) (this : ClientImpl δ) (holding : Bool) : Control δ → Prop
  | .idle => True
  | .attempting invocation =>
    Proper k this invocation.call ∧
      (mergedKey this.resourceIdentifier = k → holding = true → invocation.call.Closes)
  | .waiting invocation wrapper =>
    Proper k this invocation.call ∧
      (mergedKey this.resourceIdentifier = k → holding = true → invocation.call.Closes) ∧
      wrapper = ⟨this.resource, invocation.call.action⟩ ∧ this.resource ≠ none
  | .answered invocation response =>
    Proper k this invocation.call ∧
      (mergedKey this.resourceIdentifier = k → holding = true →
        invocation.call.Closes ∨ Success response)

/-- The client's resource carries the client's identifier. -/
def Identified (this : ClientImpl δ) : Prop :=
  ∀ r, this.resource = some r → r.resourceIdentifier = some this.resourceIdentifier

structure Invariant (uniqid : ℕ → Bytes) (k : Bytes) (s : System C δ) : Prop where
  up : s.up = true
  identified : ∀ c, Identified (s.client c)
  agrees : ∀ c, Agrees k (s.client c) (s.holding c) (s.control c)
  issued : ∀ c t, (s.client c).token = some t → ∃ n, n < s.made ∧ t = some (uniqid n)
  distinct : ∀ c c' t, (s.client c).token = some t → (s.client c').token = some t → c = c'
  holder : ∀ c, s.key c = k → s.holding c = true →
    s.taker k = some c ∧ ∃ t, (s.client c).token = some t ∧ ReservedBy s.pool k t
  owner : ∀ t, ReservedBy s.pool k t →
    ∃ c, s.key c = k ∧ s.holding c = true ∧ s.taker k = some c ∧ (s.client c).token = some t

variable {uniqid : ℕ → Bytes} {k : Bytes} {s : System C δ}

theorem token_some {this : ClientImpl δ} {r : ResourceImpl (Option δ)}
    (kept : this.resource = some r) : this.token = some r.transactionId := by
  rw [ClientImpl.token, kept]
  rfl

theorem resource_of_token {this : ClientImpl δ} {t : Option Bytes}
    (token : this.token = some t) : ∃ r, this.resource = some r ∧ r.transactionId = t :=
  Option.map_eq_some_iff.mp token

theorem invariant_start (identifiers : C → ResourceIdentifierImpl) :
    Invariant uniqid k (System.start identifiers : System C δ) where
  up := rfl
  identified := by
    intro c r kept
    cases kept
  agrees := fun c => trivial
  issued := by
    intro c t token
    cases token
  distinct := by
    intro c c' t token
    cases token
  holder := by
    intro c here holding
    cases holding
  owner := by
    rintro t ⟨r, present, -⟩
    cases present

/-- The request that the server sees in a waiting client's wrapper. -/
theorem waiting_request (invariant : Invariant uniqid k s) {c : C} {invocation : Invocation δ}
    {wrapper : ResourceWrapper (Option δ)} (waiting : s.control c = .waiting invocation wrapper)
    (now : Clock) :
    ∃ q : Request (Option δ), q.wrapper = some wrapper ∧ q.clock = now ∧ q.key = s.key c ∧
      q.action = invocation.call.action ∧ wrapper.action = invocation.call.action ∧
      (s.client c).token = some q.transactionId := by
  have agrees := invariant.agrees c
  rw [waiting] at agrees
  obtain ⟨-, -, rfl, equipped⟩ := agrees
  obtain ⟨r, kept⟩ := Option.ne_none_iff_exists'.mp equipped
  refine ⟨⟨invocation.call.action, r, (s.client c).resourceIdentifier,
    invariant.identified c r kept, now⟩, ?_, rfl, rfl, rfl, rfl, token_some kept⟩
  rw [Request.wrapper, kept]

theorem Invariant.finishes (invariant : Invariant uniqid k s) : Finishes uniqid k s where
  sent := by
    intro c invocation here holding attempting closes
    obtain ⟨-, t, token, -⟩ := invariant.holder c here holding
    obtain ⟨r, kept, -⟩ := resource_of_token token
    obtain ⟨data, ran⟩ := Call.run_keeps closes (uniqid s.made) kept
    exact ⟨_, _, ran⟩
  answered := by
    intro c invocation wrapper now here holding waiting closes
    obtain ⟨q, hwrapper, rfl, hkey, action, -, token⟩ := waiting_request invariant waiting now
    obtain ⟨-, t, token', reserved⟩ := invariant.holder c here holding
    have own : t = q.transactionId := Option.some.inj (token'.symm.trans token)
    rw [own, ← here, ← hkey] at reserved
    have closing : Closing q.action := by
      rw [action]
      exact (Call.closes_iff_action _).mp closes
    refine ⟨invariant.up, (serve s.pool q).1, (serve s.pool q).2, ?_,
      closing_granted reserved closing⟩
    rw [← hwrapper]
    exact manageWrapper_serve s.pool q
  kept := by
    intro t reserved
    obtain ⟨c, -, -, taker, token⟩ := invariant.owner t reserved
    exact ⟨c, taker, token⟩

variable [DecidableEq C]

/-- A step of one client leaves what is known of the others. -/
theorem agrees_update {client client' : C → ClientImpl δ} {holding holding' : C → Bool}
    {control : C → Control δ} {c : C} {next : Control δ}
    (agrees : ∀ c, Agrees k (client c) (holding c) (control c))
    (here : Agrees k (client' c) (holding' c) next)
    (others : ∀ c', c' ≠ c → client' c' = client c' ∧ holding' c' = holding c') (c' : C) :
    Agrees k (client' c') (holding' c') (Function.update control c next c') := by
  by_cases same : c' = c
  · subst same
    rw [Function.update_self]
    exact here
  · obtain ⟨sameClient, sameHolding⟩ := others c' same
    rw [Function.update_of_ne same, sameClient, sameHolding]
    exact agrees c'

theorem Invariant.with_control (invariant : Invariant uniqid k s) {c : C} {control : Control δ}
    (agrees : Agrees k (s.client c) (s.holding c) control) :
    Invariant uniqid k { s with control := Function.update s.control c control } where
  up := invariant.up
  identified := invariant.identified
  agrees := agrees_update invariant.agrees agrees (fun _ _ => ⟨rfl, rfl⟩)
  issued := invariant.issued
  distinct := invariant.distinct
  holder := invariant.holder
  owner := invariant.owner

theorem Invariant.beginCall (invariant : Invariant uniqid k s) {c : C}
    {invocation : Invocation δ} (disciplined : Disciplined k s c invocation.call) :
    Invariant uniqid k (s.beginCall c invocation) := by
  obtain ⟨undeleted, closes, equipped⟩ := disciplined
  exact invariant.with_control ⟨⟨equipped, undeleted⟩, closes⟩

theorem Invariant.receive (invariant : Invariant uniqid k s) {c : C}
    {invocation : Invocation δ} {response : ResponseWrapperImpl (Option δ)}
    (answered : s.control c = .answered invocation response) :
    Invariant uniqid k (s.receive c invocation response) := by
  have agrees := invariant.agrees c
  rw [answered] at agrees
  obtain ⟨proper, closes⟩ := agrees
  apply invariant.with_control
  rw [Control.after]
  cases more : invocation.again response with
  | none => trivial
  | some next =>
    have sameCall := Invocation.again_call more
    have failed : ¬ Success response := by
      intro success
      rw [Invocation.again_success invocation success] at more
      cases more
    refine ⟨?_, ?_⟩
    · rw [sameCall]
      exact proper
    · intro here holding
      rw [sameCall]
      exact (closes here holding).resolve_right failed

/-- The client keeps its token, or takes a new one while it holds nothing. -/
theorem Invariant.with_client (invariant : Invariant uniqid k s)
    (injective : Function.Injective uniqid) {c : C} {this : ClientImpl δ} {control : Control δ}
    (named : this.resourceIdentifier = (s.client c).resourceIdentifier)
    (identified : Identified this) (agrees : Agrees k this (s.holding c) control)
    (token : this.token = (s.client c).token ∨
      this.token = some (some (uniqid s.made)) ∧ (s.key c = k → s.holding c ≠ true)) :
    Invariant uniqid k { s with
      client := Function.update s.client c this
      control := Function.update s.control c control
      made := s.made + 1 } := by
  have sameKey : ∀ c', mergedKey (Function.update s.client c this c').resourceIdentifier =
      s.key c' := by
    intro c'
    by_cases same : c' = c
    · subst same
      rw [Function.update_self, named]
      rfl
    · rw [Function.update_of_ne same]
      rfl
  -- A token is an old one of the same client, or the new one of `c`.
  have tokens : ∀ c' t, (Function.update s.client c this c').token = some t →
      (s.client c').token = some t ∨ c' = c ∧ t = some (uniqid s.made) := by
    intro c' t token'
    by_cases same : c' = c
    · subst same
      rw [Function.update_self] at token'
      rcases token with kept | ⟨new, -⟩
      · exact Or.inl (kept.symm.trans token')
      · exact Or.inr ⟨rfl, Option.some.inj (token'.symm.trans new)⟩
    · rw [Function.update_of_ne same] at token'
      exact Or.inl token'
  have fresh : ∀ c' t, (s.client c').token = some t → t ≠ some (uniqid s.made) := by
    intro c' t old new
    obtain ⟨n, before, issued⟩ := invariant.issued c' t old
    have same : n = s.made := injective (Option.some.inj (issued.symm.trans new))
    omega
  have keeps : ∀ c' t, s.key c' = k → s.holding c' = true → (s.client c').token = some t →
      (Function.update s.client c this c').token = some t := by
    intro c' t here holding old
    by_cases same : c' = c
    · subst same
      rw [Function.update_self]
      rcases token with kept | ⟨-, idle⟩
      · exact kept.trans old
      · exact False.elim (idle here holding)
    · rw [Function.update_of_ne same]
      exact old
  refine ⟨invariant.up, ?_, ?_, ?_, ?_, ?_, ?_⟩
  · intro c'
    change Identified (Function.update s.client c this c')
    by_cases same : c' = c
    · subst same
      rw [Function.update_self]
      exact identified
    · rw [Function.update_of_ne same]
      exact invariant.identified c'
  · refine agrees_update invariant.agrees ?_ (fun c' other => ⟨Function.update_of_ne other .., rfl⟩)
    change Agrees k (Function.update s.client c this c) (s.holding c) control
    rw [Function.update_self]
    exact agrees
  · intro c' t token'
    rcases tokens c' t token' with old | ⟨-, new⟩
    · obtain ⟨n, before, issued⟩ := invariant.issued c' t old
      exact ⟨n, Nat.lt_succ_of_lt before, issued⟩
    · exact ⟨s.made, Nat.lt_succ_self _, new⟩
  · intro c₁ c₂ t first second
    rcases tokens c₁ t first with old₁ | ⟨is₁, new₁⟩
    · rcases tokens c₂ t second with old₂ | ⟨-, new₂⟩
      · exact invariant.distinct c₁ c₂ t old₁ old₂
      · exact False.elim (fresh c₁ t old₁ new₂)
    · rcases tokens c₂ t second with old₂ | ⟨is₂, -⟩
      · exact False.elim (fresh c₂ t old₂ new₁)
      · exact is₁.trans is₂.symm
  · intro c' here holding
    have here' : s.key c' = k := (sameKey c').symm.trans here
    obtain ⟨taker, t, old, reserved⟩ := invariant.holder c' here' holding
    exact ⟨taker, t, keeps c' t here' holding old, reserved⟩
  · intro t reserved
    obtain ⟨c', here, holding, taker, old⟩ := invariant.owner t reserved
    exact ⟨c', (sameKey c').trans here, holding, taker, keeps c' t here holding old⟩

theorem Invariant.send (invariant : Invariant uniqid k s)
    (injective : Function.Injective uniqid) {c : C} {invocation : Invocation δ}
    (attempting : s.control c = .attempting invocation) :
    Invariant uniqid k (s.send uniqid c invocation) := by
  have agrees := invariant.agrees c
  rw [attempting] at agrees
  obtain ⟨proper, closes⟩ := agrees
  by_cases closing : invocation.call.Closes
  · cases kept : (s.client c).resource with
    | some r =>
      obtain ⟨data, ran⟩ := Call.run_keeps closing (uniqid s.made) kept
      rw [System.send, ran]
      refine invariant.with_client injective rfl ?_ ?_ (Or.inl (token_some kept).symm)
      · intro r' kept'
        cases kept'
        exact invariant.identified c r kept
      · exact ⟨⟨fun _ => Option.some_ne_none _, proper.undeleted⟩, closes, rfl,
          Option.some_ne_none _⟩
    | none =>
      rcases Call.run_without closing (uniqid s.made) kept with ⟨e, threw⟩ | ⟨release, -⟩
      · rw [System.send, threw]
        exact invariant.with_client injective rfl (invariant.identified c) trivial (Or.inl rfl)
      · exact False.elim (proper.equipped release kept)
  · obtain ⟨data, ran⟩ := Call.run_renews closing (uniqid s.made) (s.client c)
    rw [System.send, ran]
    refine invariant.with_client injective rfl ?_ ?_ (Or.inr ⟨rfl, ?_⟩)
    · intro r' kept'
      cases kept'
      rfl
    · exact ⟨⟨fun _ => Option.some_ne_none _, proper.undeleted⟩, closes, rfl,
        Option.some_ne_none _⟩
    · intro here holding
      exact closing (closes here holding)

section Records

variable {c : C} {action : Bytes} {response : ResponseWrapperImpl (Option δ)}

theorem holdsNext_others {c' : C} (other : c' ≠ c) :
    s.holdsNext c action response c' = s.holding c' := by
  rw [System.holdsNext]
  split
  · exact Function.update_of_ne other ..
  split
  · exact Function.update_of_ne other ..
  · rfl

omit [DecidableEq C] in
theorem tookNext_elsewhere (other : s.key c ≠ k) :
    s.tookNext c action response k = s.taker k := by
  rw [System.tookNext]
  split
  · exact Function.update_of_ne other.symm ..
  · rfl

theorem holdsNext_refused (refused : ¬ Success response) :
    s.holdsNext c action response = s.holding := by
  rw [System.holdsNext, if_neg (fun h => refused h.2), if_neg (fun h => refused h.2)]

omit [DecidableEq C] in
theorem tookNext_refused (refused : ¬ Success response) :
    s.tookNext c action response = s.taker := by
  rw [System.tookNext, if_neg (fun h => refused h.2)]

omit [DecidableEq C] in
theorem tookNext_other (other : action ≠ IResourceHolder.get) :
    s.tookNext c action response = s.taker := by
  rw [System.tookNext, if_neg (fun h => other h.1)]

theorem holdsNext_closing (closing : Closing action) (granted : Success response) :
    s.holdsNext c action response = Function.update s.holding c false := by
  have other := closing_ne_get closing
  rw [System.holdsNext, if_neg (fun h => other h.1), if_pos ⟨closing, granted⟩]

theorem holdsNext_other (other : action ≠ IResourceHolder.get) (notClosing : ¬ Closing action) :
    s.holdsNext c action response = s.holding := by
  rw [System.holdsNext, if_neg (fun h => other h.1), if_neg (fun h => notClosing h.1)]

end Records

/-- The records agree with a pool, its takers and its holders. -/
structure Recorded (k : Bytes) (s : System C δ) (pool : Pool (Option δ))
    (taker : Bytes → Option C) (holding : C → Bool) : Prop where
  holder : ∀ c, s.key c = k → holding c = true →
    taker k = some c ∧ ∃ t, (s.client c).token = some t ∧ ReservedBy pool k t
  owner : ∀ t, ReservedBy pool k t →
    ∃ c, s.key c = k ∧ holding c = true ∧ taker k = some c ∧ (s.client c).token = some t

omit [DecidableEq C] in
/-- What leaves the entry at `k` and its records keeps their agreement. -/
theorem Invariant.recorded_same (invariant : Invariant uniqid k s)
    {pool : Pool (Option δ)} {taker : Bytes → Option C} {holding : C → Bool}
    (samePool : pool k = s.pool k) (sameTaker : taker k = s.taker k)
    (sameHolding : ∀ c, s.key c = k → holding c = s.holding c) :
    Recorded k s pool taker holding where
  holder := by
    intro c here held
    rw [sameHolding c here] at held
    obtain ⟨took, t, token, r, present, reserved, own⟩ := invariant.holder c here held
    exact ⟨sameTaker.trans took, t, token, r, samePool.trans present, reserved, own⟩
  owner := by
    rintro t ⟨r, present, reserved, own⟩
    obtain ⟨c, here, held, took, token⟩ :=
      invariant.owner t ⟨r, samePool.symm.trans present, reserved, own⟩
    exact ⟨c, here, (sameHolding c here).trans held, sameTaker.trans took, token⟩

section Turn

variable {c : C} {q : Request (Option δ)}

/-- A granted `GET` makes its client the taker and the only holder. -/
theorem Invariant.recorded_get (invariant : Invariant uniqid k s) (here : s.key c = k)
    (key : q.key = k) (token : (s.client c).token = some q.transactionId)
    (action : q.action = IResourceHolder.get) (granted : Success (serve s.pool q).1) :
    Recorded k s (serve s.pool q).2 (Function.update s.taker (s.key c) (some c))
      (Function.update s.holding c true) := by
  have reserved := get_reserves action granted
  rw [key] at reserved
  have took : Function.update s.taker (s.key c) (some c) k = some c := by
    rw [here]
    exact Function.update_self ..
  constructor
  · intro c' here' held
    by_cases same : c' = c
    · subst same
      exact ⟨took, q.transactionId, token, reserved⟩
    · -- Another holder would have had the entry reserved, and the `GET` refused.
      rw [Function.update_of_ne same] at held
      obtain ⟨-, t, -, before⟩ := invariant.holder c' here' held
      rw [← key] at before
      exact False.elim (get_refused before action granted)
  · intro t reserved'
    have own : q.transactionId = t := reservedBy_unique reserved reserved'
    exact ⟨c, here, Function.update_self .., took, own ▸ token⟩

/-- A granted `PUT` or `RELEASE` comes from the holder and leaves nobody one. -/
theorem Invariant.recorded_closing (invariant : Invariant uniqid k s) (key : q.key = k)
    (token : (s.client c).token = some q.transactionId) (closing : Closing q.action)
    (granted : Success (serve s.pool q).1) :
    Recorded k s (serve s.pool q).2 s.taker (Function.update s.holding c false) := by
  have before := closing_reserved closing granted
  rw [key] at before
  obtain ⟨c₀, -, -, took, token₀⟩ := invariant.owner _ before
  have same : c₀ = c := invariant.distinct c₀ c _ token₀ token
  subst same
  constructor
  · intro c' here' held
    by_cases same : c' = c₀
    · subst same
      rw [Function.update_self] at held
      cases held
    · rw [Function.update_of_ne same] at held
      obtain ⟨took', -⟩ := invariant.holder c' here' held
      exact False.elim (same (Option.some.inj (took'.symm.trans took)))
  · intro t reserved
    rw [← key] at reserved
    exact False.elim (closing_frees closing granted t reserved)

/-- The records after any turn of the server on a client's request. -/
theorem Invariant.recorded_turn (invariant : Invariant uniqid k s) {call : Call δ}
    (proper : Proper k (s.client c) call) (key : q.key = s.key c)
    (token : (s.client c).token = some q.transactionId) (action : q.action = call.action) :
    Recorded k s (serve s.pool q).2 (s.tookNext c q.action (serve s.pool q).1)
      (s.holdsNext c q.action (serve s.pool q).1) := by
  by_cases here : s.key c = k
  · by_cases granted : Success (serve s.pool q).1
    · have hkey : q.key = k := key.trans here
      by_cases closes : call.Closes
      · have closing : Closing q.action := by
          rw [action]
          exact (Call.closes_iff_action call).mp closes
        rw [tookNext_other (closing_ne_get closing), holdsNext_closing closing granted]
        exact invariant.recorded_closing hkey token closing granted
      · cases call with
        | get data =>
          have isGet : q.action = IResourceHolder.get := action
          rw [System.tookNext, System.holdsNext, if_pos ⟨isGet, granted⟩,
            if_pos ⟨isGet, granted⟩]
          exact invariant.recorded_get here hkey token isGet granted
        | read =>
          have isRead : q.action = IResourceHolder.read := action
          obtain ⟨r, present, -, left⟩ := read_granted isRead granted
          rw [hkey] at present left
          rw [isRead, tookNext_other (by decide), holdsNext_other (by decide) (by decide)]
          exact invariant.recorded_same (left.trans present.symm) rfl (fun _ _ => rfl)
        | delete => exact False.elim (proper.undeleted here rfl)
        | put data => exact False.elim (closes trivial)
        | release => exact False.elim (closes trivial)
    · rw [refused_serve s.pool q granted, tookNext_refused granted, holdsNext_refused granted]
      exact invariant.recorded_same rfl rfl (fun _ _ => rfl)
  · have other : q.key ≠ k := by
      rw [key]
      exact here
    refine invariant.recorded_same (serve_elsewhere s.pool q other) (tookNext_elsewhere here) ?_
    intro c' here'
    apply holdsNext_others
    rintro rfl
    exact here here'

end Turn

theorem Invariant.serveClient (invariant : Invariant uniqid k s) {c : C}
    {invocation : Invocation δ} {wrapper : ResourceWrapper (Option δ)}
    (waiting : s.control c = .waiting invocation wrapper) (now : Clock) :
    Invariant uniqid k (s.serveClient c invocation wrapper now) := by
  obtain ⟨q, hwrapper, rfl, key, action, sameAction, token⟩ :=
    waiting_request invariant waiting now
  have agrees := invariant.agrees c
  rw [waiting] at agrees
  obtain ⟨proper, closes, -⟩ := agrees
  have recorded := invariant.recorded_turn proper key token action
  have ran := manageWrapper_serve s.pool q
  rw [hwrapper] at ran
  rw [System.serveClient, ran]
  simp only [sameAction, ← action]
  exact {
    up := invariant.up
    identified := invariant.identified
    agrees := by
      refine agrees_update invariant.agrees ⟨proper, ?_⟩
        (fun c' other => ⟨rfl, holdsNext_others other⟩)
      intro here holding
      by_cases granted : Success (serve s.pool q).1
      · exact Or.inr granted
      · rw [holdsNext_refused granted] at holding
        exact Or.inl (closes here holding)
    issued := invariant.issued
    distinct := invariant.distinct
    holder := recorded.holder
    owner := recorded.owner }

theorem invariant_step {s' : System C δ} (injective : Function.Injective uniqid)
    (invariant : Invariant uniqid k s) (step : Step uniqid (Disciplined k) s s') :
    Invariant uniqid k s' := by
  cases step with
  | beginCall c invocation idle disciplined => exact invariant.beginCall disciplined
  | send c invocation attempting => exact invariant.send injective attempting
  | serve c invocation wrapper now up waiting => exact invariant.serveClient waiting now
  | receive c invocation response answered => exact invariant.receive answered

end Invariant

section Runs

variable [DecidableEq C] {uniqid : ℕ → Bytes} {k : Bytes} {s : System C δ}

theorem invariant_run (injective : Function.Injective uniqid)
    {identifiers : C → ResourceIdentifierImpl}
    (run : Relation.ReflTransGen (Step uniqid (Disciplined k)) (System.start identifiers) s) :
    Invariant uniqid k s := by
  induction run with
  | refl => exact invariant_start identifiers
  | tail _ step invariant => exact invariant_step injective invariant step

section Send

variable {c : C} {invocation : Invocation δ}

@[simp] theorem send_pool : (s.send uniqid c invocation).pool = s.pool := by
  rw [System.send]
  split <;> rfl

@[simp] theorem send_taker : (s.send uniqid c invocation).taker = s.taker := by
  rw [System.send]
  split <;> rfl

theorem send_new_token (renews : ¬ invocation.call.Closes) :
    ((s.send uniqid c invocation).client c).token = some (some (uniqid s.made)) := by
  obtain ⟨data, ran⟩ := Call.run_renews renews (uniqid s.made) (s.client c)
  rw [System.send, ran]
  simp only [Function.update_self]
  rfl

end Send

/-- A holder that calls `get`, `read` or `delete` has lost its token as soon as
the request is sent. -/
theorem Invariant.not_finishes_send (invariant : Invariant uniqid k s)
    (injective : Function.Injective uniqid) {c : C} {invocation : Invocation δ}
    (here : s.key c = k) (holding : s.holding c = true) (renews : ¬ invocation.call.Closes) :
    ¬ Finishes uniqid k ((s.beginCall c invocation).send uniqid c invocation) := by
  intro finishes
  obtain ⟨took, t, token, reserved⟩ := invariant.holder c here holding
  obtain ⟨n, before, issued⟩ := invariant.issued c t token
  have reserved' : ReservedBy ((s.beginCall c invocation).send uniqid c invocation).pool k t := by
    rw [send_pool]
    exact reserved
  obtain ⟨c', took', token'⟩ := finishes.kept t reserved'
  rw [send_taker] at took'
  have same : c' = c := Option.some.inj (took'.symm.trans took)
  subst same
  rw [send_new_token renews] at token'
  have new : some (uniqid s.made) = t := Option.some.inj token'
  have old : n = s.made := injective (Option.some.inj (issued.symm.trans new.symm))
  omega

theorem send_ran {c : C} {invocation : Invocation δ} {wrapper : ResourceWrapper (Option δ)}
    {this : ClientImpl δ}
    (ran : invocation.call.run (uniqid s.made) (s.client c) = .ok wrapper this) :
    s.send uniqid c invocation = { s with
      client := Function.update s.client c this
      control := Function.update s.control c (.waiting invocation wrapper)
      made := s.made + 1 } := by
  rw [System.send, ran]

/-- A `put` or `release` that is sent while the server is down is not answered. -/
theorem not_finishes_down {c : C} {invocation : Invocation δ} (down : s.up = false)
    (here : s.key c = k) (holding : s.holding c = true) (closes : invocation.call.Closes)
    {r : ResourceImpl (Option δ)} (kept : (s.client c).resource = some r) :
    ¬ Finishes uniqid k ((s.beginCall c invocation).send uniqid c invocation) := by
  intro finishes
  obtain ⟨data, ran⟩ := Call.run_keeps closes (uniqid s.made) kept
  have sent := send_ran (s := s.beginCall c invocation) ran
  rw [sent] at finishes
  have named : mergedKey (Function.update s.client c
      { s.client c with resource := some { r with data := data } } c).resourceIdentifier = k := by
    rw [Function.update_self]
    exact here
  obtain ⟨up, -⟩ := finishes.answered c invocation _ ⟨[], []⟩ named holding
    (Function.update_self ..) closes
  cases down.symm.trans up

/-- A client without a resource that calls `release` sends `NULL` and ends the
server, so a holder's `put` or `release` is not answered. -/
theorem Invariant.not_finishes_release (invariant : Invariant uniqid k s) {c holder : C}
    {invocation closing : Invocation δ} (now : Clock) (release : invocation.call = .release)
    (without : (s.client c).resource = none) (here : s.key holder = k)
    (holding : s.holding holder = true) (closes : closing.call.Closes) :
    ∃ wrapper, ((s.beginCall c invocation).send uniqid c invocation).control c =
        .waiting invocation wrapper ∧
      ¬ Finishes uniqid k (((((s.beginCall c invocation).send uniqid c invocation).serveClient c
        invocation wrapper now).beginCall holder closing).send uniqid holder closing) := by
  have ran : invocation.call.run (uniqid s.made) (s.client c) =
      .ok ⟨none, invocation.call.action⟩ (s.client c) := by
    have isClosing : invocation.call.Closes := by
      rw [release]
      trivial
    rcases Call.run_without isClosing (uniqid s.made) without with ⟨e, threw⟩ | ⟨-, sent⟩
    · rw [release] at threw
      cases threw
    · exact sent
  have sent := send_ran (s := s.beginCall c invocation) ran
  refine ⟨⟨none, invocation.call.action⟩, ?_, ?_⟩
  · rw [sent]
    exact Function.update_self ..
  -- the holder is another client, which the release leaves as it is
  obtain ⟨-, t, token, -⟩ := invariant.holder holder here holding
  obtain ⟨r, kept, -⟩ := resource_of_token token
  have same : Function.update s.client c (s.client c) = s.client := Function.update_eq_self c _
  refine not_finishes_down (r := r) ?_ ?_ ?_ closes ?_
  · rfl
  · rw [sent]
    change mergedKey (Function.update s.client c (s.client c) holder).resourceIdentifier = k
    rw [same]
    exact here
  · rw [sent]
    exact holding
  · rw [sent]
    change (Function.update s.client c (s.client c) holder).resource = some r
    rw [same]
    exact kept

end Runs

/-- In every run of clients that keep to the discipline, in every order of
their messages, a client with a reservation of `k` can finish it. A client with
a reservation that calls anything but `put` and `release` cannot, and once a
client without a resource calls `release`, no client with a reservation can. -/
theorem disciplined_clients_finish [DecidableEq C] (uniqid : ℕ → Bytes)
    (injective : Function.Injective uniqid) (identifiers : C → ResourceIdentifierImpl)
    (k : Bytes) (s : System C δ)
    (run : Relation.ReflTransGen (Step uniqid (Disciplined k)) (System.start identifiers) s) :
    Finishes uniqid k s ∧
    (∀ c invocation, s.key c = k → s.holding c = true → ¬ invocation.call.Closes →
      ¬ Finishes uniqid k ((s.beginCall c invocation).send uniqid c invocation)) ∧
    ∀ c invocation holder closing now, invocation.call = .release →
      (s.client c).resource = none → s.key holder = k → s.holding holder = true →
      closing.call.Closes →
      ∃ wrapper, ((s.beginCall c invocation).send uniqid c invocation).control c =
          .waiting invocation wrapper ∧
        ¬ Finishes uniqid k (((((s.beginCall c invocation).send uniqid c invocation).serveClient c
          invocation wrapper now).beginCall holder closing).send uniqid holder closing) := by
  have invariant := invariant_run injective run
  refine ⟨invariant.finishes, ?_, ?_⟩
  · intro c invocation here holding renews
    exact invariant.not_finishes_send injective here holding renews
  · intro c invocation holder closing now release without here holding closes
    exact invariant.not_finishes_release now release without here holding closes

section Sample

/-- Strings of different lengths. -/
def sampleUniqid (n : ℕ) : Bytes := List.replicate n 97

theorem sampleUniqid_injective : Function.Injective sampleUniqid := by
  intro m n same
  have lengths := congrArg List.length same
  simpa [sampleUniqid] using lengths

def sampleClock : Clock := ⟨ascii "2015-06-01", ascii "10:00:00:000000"⟩

def sampleStart : System Unit Nat :=
  System.start fun _ => ⟨ascii "anyem.com", ascii "anyemNameSpace", ascii "a"⟩

/-- What the only client, or the server for it, does next. -/
def sampleNext (s : System Unit Nat) : System Unit Nat :=
  match s.control () with
  | .idle => s
  | .attempting invocation => s.send sampleUniqid () invocation
  | .waiting invocation wrapper => s.serveClient () invocation wrapper sampleClock
  | .answered invocation response => s.receive () invocation response

def sampleCall (s : System Unit Nat) (call : Call Nat) : System Unit Nat :=
  sampleNext (sampleNext (sampleNext (s.beginCall () ⟨call, none⟩)))

theorem sampleNext_run {mayBegin : System Unit Nat → Unit → Call Nat → Prop}
    {s₀ s : System Unit Nat} (run : Relation.ReflTransGen (Step sampleUniqid mayBegin) s₀ s)
    (up : s.up = true) :
    Relation.ReflTransGen (Step sampleUniqid mayBegin) s₀ (sampleNext s) := by
  rw [sampleNext]
  cases control : s.control () with
  | idle => exact run
  | attempting invocation => exact run.tail (.send s () invocation control)
  | waiting invocation wrapper =>
    exact run.tail (.serve s () invocation wrapper sampleClock up control)
  | answered invocation response => exact run.tail (.receive s () invocation response control)

theorem sampleCall_run {mayBegin : System Unit Nat → Unit → Call Nat → Prop}
    {s₀ s : System Unit Nat} (run : Relation.ReflTransGen (Step sampleUniqid mayBegin) s₀ s)
    {call : Call Nat} (idle : s.control () = .idle) (allowed : mayBegin s () call)
    (up : (sampleNext (sampleNext (s.beginCall () ⟨call, none⟩))).up = true)
    (up₁ : (sampleNext (s.beginCall () ⟨call, none⟩)).up = true) (up₀ : s.up = true) :
    Relation.ReflTransGen (Step sampleUniqid mayBegin) s₀ (sampleCall s call) := by
  have began := run.tail (.beginCall s () ⟨call, none⟩ idle allowed)
  exact sampleNext_run (sampleNext_run (sampleNext_run began up₀) up₁) up

/-- The wrapper that waits for the server. -/
def sampleWaiting (s : System Unit Nat) : Option (ResourceWrapper (Option Nat)) :=
  match s.control () with
  | .waiting _ wrapper => some wrapper
  | _ => none

/-- The only client gets the variable and then puts 6. -/
def samplePut : System Unit Nat :=
  sampleNext ((sampleCall sampleStart (.get (some 5))).beginCall () ⟨.put (some 6), none⟩)

/-- The same, with a `read` before the `put`. -/
def sampleReadPut : System Unit Nat :=
  sampleNext ((sampleCall (sampleCall sampleStart (.get (some 5))) .read).beginCall ()
    ⟨.put (some 6), none⟩)

/-- After its `get` a client is granted its `put`. -/
theorem sample_put_succeeds :
    ∃ wrapper, sampleWaiting samplePut = some wrapper ∧ ∃ response pool,
      manageWrapper (some wrapper) sampleClock samplePut.pool = .ok response pool ∧
        Success response := by
  let k := sampleStart.key ()
  let s := sampleCall sampleStart (.get (some 5))
  have allowed : Disciplined k sampleStart () (.get (some 5)) :=
    ⟨fun _ => by simp, fun _ holding => (by cases holding), by simp⟩
  have allowed' : Disciplined k s () (.put (some 6)) :=
    ⟨fun _ => by simp, fun _ _ => trivial, by simp⟩
  have got : Relation.ReflTransGen (Step sampleUniqid (Disciplined k)) sampleStart s :=
    sampleCall_run .refl rfl allowed rfl rfl rfl
  have run : Relation.ReflTransGen (Step sampleUniqid (Disciplined k)) sampleStart samplePut :=
    sampleNext_run (got.tail (.beginCall s () ⟨.put (some 6), none⟩ rfl allowed')) rfl
  have finishes := (disciplined_clients_finish sampleUniqid sampleUniqid_injective
    (fun _ => ⟨ascii "anyem.com", ascii "anyemNameSpace", ascii "a"⟩) k samplePut run).1
  exact ⟨_, rfl,
    (finishes.answered () ⟨.put (some 6), none⟩ _ sampleClock rfl rfl rfl trivial).2⟩

/-- A client that reads the variable it holds can neither put nor release it. -/
theorem reading_holder_cannot_finish :
    ¬ ∀ (uniqid : ℕ → Bytes) (identifiers : Unit → ResourceIdentifierImpl) (k : Bytes)
      (s : System Unit Nat), Function.Injective uniqid →
      Relation.ReflTransGen (Step uniqid (Undeleted k)) (System.start identifiers) s →
      Finishes uniqid k s := by
  intro claims
  let k := sampleStart.key ()
  let s₁ := sampleCall sampleStart (.get (some 5))
  let s₂ := sampleCall s₁ .read
  have got : Relation.ReflTransGen (Step sampleUniqid (Undeleted k)) sampleStart s₁ :=
    sampleCall_run .refl rfl (fun _ => by simp) rfl rfl rfl
  have read : Relation.ReflTransGen (Step sampleUniqid (Undeleted k)) sampleStart s₂ :=
    sampleCall_run got rfl (fun _ => by simp) rfl rfl rfl
  have run : Relation.ReflTransGen (Step sampleUniqid (Undeleted k)) sampleStart sampleReadPut :=
    sampleNext_run (read.tail (.beginCall s₂ () ⟨.put (some 6), none⟩ rfl (fun _ => by simp))) rfl
  have finishes := claims sampleUniqid _ k sampleReadPut sampleUniqid_injective run
  obtain ⟨-, response, pool, ran, success⟩ :=
    finishes.answered () ⟨.put (some 6), none⟩ _ sampleClock rfl rfl rfl trivial
  cases ran
  exact absurd success (by decide)

end Sample

end Finishing
