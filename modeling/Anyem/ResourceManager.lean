import Anyem.ReplyMachine
import Anyem.ResourceHolder

/-!
# The resource manager answers requests

`manage` unserializes a request, runs the holder inside its `try` block, and
answers with the result or with the message of the caught exception. A request
that carries a resource with an identifier is always answered, and `serve` is
that answer as a total function: one step of the server on its pool.
-/

namespace ResourceManager

open Resource ResourceHandles ResourceHolder ThrowingMethods

variable {δ : Type}

/-- PHP's own functions, as far as `manage` uses them on what clients send: wrappers
whose properties have the types that the source declares, and texts that
`unserialize` does not accept, with `none` for `FALSE`. -/
structure Serializer (δ : Type) where
  serialize : ResponseWrapperImpl δ → Bytes
  unserialize : Bytes → Option (ResourceWrapper δ)

def getAction (resourceWrapper : Option (ResourceWrapper δ)) :
    Method Throwable (Pool δ) Bytes :=
  match resourceWrapper with
  | none => throw (.memberCall (ascii "getAction"))
  | some w => pure w.action

def getResource (resourceWrapper : Option (ResourceWrapper δ)) :
    Method Throwable (Pool δ) (Option (ResourceImpl δ)) :=
  match resourceWrapper with
  | none => throw (.memberCall (ascii "getResource"))
  | some w => pure w.resource

/-- Build a holder on the static pool and execute it. -/
def executeHolder (action : Bytes) (resource : Option (ResourceImpl δ)) (now : Clock) :
    Method Throwable (Pool δ) (Option (ResourceImpl δ)) := fun pool =>
  match ResourceHolderImpl.construct pool action resource with
  | .error e => .error e pool
  | .ok resourceHolder =>
    match ResourceHolderImpl.execute now resourceHolder with
    | .ok mixedResponse h => .ok mixedResponse h.resourcePool
    | .error e h => .error e h.resourcePool

/-- The part of `manage` between `unserialize` and `serialize`. -/
def manageWrapper (resourceWrapper : Option (ResourceWrapper δ)) (now : Clock) :
    Method Throwable (Pool δ) (ResponseWrapperImpl δ) :=
  tryCatch
    (do
      let action ← getAction resourceWrapper
      let resource ← getResource resourceWrapper
      let mixedResponse ← executeHolder action resource now
      return ⟨mixedResponse, none, some IResponseWrapper.successResponseCode⟩)
    fun
      | .exception message =>
        return ⟨none, some message, some IResponseWrapper.errorResponseCode⟩
      | ex => throw ex

def manage (php : Serializer δ) (resourceWrapper : Bytes) (now : Clock) :
    Method Throwable (Pool δ) Bytes := do
  let responseWrapper ← manageWrapper (php.unserialize resourceWrapper) now
  return php.serialize responseWrapper

/-- A request that the handlers can work on, with the clock reading of its turn. -/
structure Request (δ : Type) where
  action : Bytes
  resource : ResourceImpl δ
  identifier : ResourceIdentifierImpl
  identified : resource.resourceIdentifier = some identifier
  clock : Clock

namespace Request

def key (q : Request δ) : Bytes := mergedKey q.identifier

def transactionId (q : Request δ) : Option Bytes := q.resource.transactionId

def data (q : Request δ) : δ := q.resource.data

def wrapper (q : Request δ) : Option (ResourceWrapper δ) := some ⟨some q.resource, q.action⟩

/-- A request around a resource that the `ResourceImpl` constructor built. -/
def build (action : Bytes) (i : ResourceIdentifierImpl) (uniqid : Bytes) (data : δ)
    (clock : Clock) : Request δ where
  action := action
  resource := ResourceImpl.construct (some i) data uniqid
  identifier := i
  identified := rfl
  clock := clock

/-- What the request's action does to the entry at its key. -/
def outcome (q : Request δ) (entry : Option (ResourceImpl δ)) : ResourceHolderImpl.Outcome δ :=
  ResourceHolderImpl.outcome q.action q.resource q.clock entry

end Request

section Dispatch

variable {q : Request δ} (entry : Option (ResourceImpl δ))

theorem outcome_get (action : q.action = IResourceHolder.get) :
    q.outcome entry = ResourceHolderImpl.getOutcome q.resource q.clock entry := by
  rw [Request.outcome, ResourceHolderImpl.outcome, if_pos action]

theorem outcome_put (action : q.action = IResourceHolder.put) :
    q.outcome entry = ResourceHolderImpl.putOutcome q.resource q.clock entry := by
  rw [Request.outcome, ResourceHolderImpl.outcome, action, if_neg (by decide), if_pos rfl]

theorem outcome_release (action : q.action = IResourceHolder.release) :
    q.outcome entry = ResourceHolderImpl.releaseOutcome q.resource q.clock entry := by
  rw [Request.outcome, ResourceHolderImpl.outcome, action, if_neg (by decide),
    if_neg (by decide), if_pos rfl]

theorem outcome_read (action : q.action = IResourceHolder.read) :
    q.outcome entry = ResourceHolderImpl.readOutcome entry := by
  rw [Request.outcome, ResourceHolderImpl.outcome, action, if_neg (by decide),
    if_neg (by decide), if_neg (by decide), if_pos rfl]

theorem outcome_delete (action : q.action = IResourceHolder.delete) :
    q.outcome entry = ResourceHolderImpl.deleteOutcome entry := by
  rw [Request.outcome, ResourceHolderImpl.outcome, action, if_neg (by decide),
    if_neg (by decide), if_neg (by decide), if_neg (by decide), if_pos rfl]

/-- The action is one of the five that the `switch` knows. -/
def Known (action : Bytes) : Prop :=
  action = IResourceHolder.get ∨ action = IResourceHolder.put ∨
    action = IResourceHolder.release ∨ action = IResourceHolder.read ∨
    action = IResourceHolder.delete

instance (action : Bytes) : Decidable (Known action) :=
  inferInstanceAs (Decidable (_ ∨ _ ∨ _ ∨ _ ∨ _))

theorem outcome_unknown (unknown : ¬ Known q.action) : q.outcome entry = .ok (none, entry) := by
  simp only [Known, not_or] at unknown
  obtain ⟨noGet, noPut, noRelease, noRead, noDelete⟩ := unknown
  rw [Request.outcome, ResourceHolderImpl.outcome, if_neg noGet, if_neg noPut,
    if_neg noRelease, if_neg noRead, if_neg noDelete]

end Dispatch

/-- The response wrapper for an outcome. -/
def respond : ResourceHolderImpl.Outcome δ → ResponseWrapperImpl δ
  | .error message => ⟨none, some message, some IResponseWrapper.errorResponseCode⟩
  | .ok (result, _) => ⟨result, none, some IResponseWrapper.successResponseCode⟩

/-- The entry that an outcome leaves in the place of `entry`. -/
def nextEntry (entry : Option (ResourceImpl δ)) :
    ResourceHolderImpl.Outcome δ → Option (ResourceImpl δ)
  | .error _ => entry
  | .ok (_, left) => left

theorem executeHolder_run (q : Request δ) (pool : Pool δ) :
    executeHolder q.action (some q.resource) q.clock pool =
      match q.outcome (pool q.key) with
      | .error message => .error (.exception message) pool
      | .ok (result, entry) => .ok result (Function.update pool q.key entry) := by
  let h : ResourceHolderImpl δ :=
    { resourcePool := pool
      action := q.action
      givenResource := q.resource
      resourceIdentiferMerged := q.key
      resourceExist := (pool q.key).isSome }
  have built : ResourceHolderImpl.construct pool q.action (some q.resource) = .ok h := by
    simp only [ResourceHolderImpl.construct, q.identified]
    rfl
  have looked : h.LookedUp (pool q.key) := ⟨rfl, rfl⟩
  have yields := ResourceHolderImpl.execute_yields q.clock looked
  change Yields .exception _ h (q.outcome (pool q.key)) at yields
  simp only [executeHolder, built]
  cases ho : q.outcome (pool q.key) with
  | error message =>
    rw [ho] at yields
    obtain ⟨h', threw, same⟩ := yields
    simp only [threw, same]
    rfl
  | ok p =>
    rw [ho] at yields
    obtain ⟨h', ran, left⟩ := yields
    simp only [ran, left]
    rfl

/-- Every request that carries a resource with an identifier is answered, and
nothing but the entry at its key changes. -/
theorem manageWrapper_run (q : Request δ) (pool : Pool δ) :
    manageWrapper q.wrapper q.clock pool =
      .ok (respond (q.outcome (pool q.key)))
        (Function.update pool q.key (nextEntry (pool q.key) (q.outcome (pool q.key)))) := by
  have ran := executeHolder_run q pool
  simp only [manageWrapper, tryCatch_run, Request.wrapper, getAction, getResource, bind_run,
    pure_run, ran]
  cases q.outcome (pool q.key) with
  | error message => simp only [respond, nextEntry, Function.update_eq_self, pure_run]
  | ok p => rfl

/-- One turn of the server: the response and the pool after it. -/
def serve (pool : Pool δ) (q : Request δ) : ResponseWrapperImpl δ × Pool δ :=
  match h : manageWrapper q.wrapper q.clock pool with
  | .ok response pool' => (response, pool')
  | .error _ _ => False.elim (by rw [manageWrapper_run] at h; cases h)

theorem serve_eq (pool : Pool δ) (q : Request δ) :
    serve pool q = (respond (q.outcome (pool q.key)),
      Function.update pool q.key (nextEntry (pool q.key) (q.outcome (pool q.key)))) := by
  rw [serve]
  split
  · rename_i response pool' ran
    rw [manageWrapper_run] at ran
    cases ran
    rfl
  · rename_i ran
    rw [manageWrapper_run] at ran
    cases ran

theorem manageWrapper_serve (pool : Pool δ) (q : Request δ) :
    manageWrapper q.wrapper q.clock pool = .ok (serve pool q).1 (serve pool q).2 := by
  rw [serve_eq, manageWrapper_run]

section Inversion

/-- The requests that are carried out at an entry, with what they return and
what they leave in its place. -/
inductive Granted (q : Request δ) : Option (ResourceImpl δ) →
    Option (ResourceImpl δ) → Option (ResourceImpl δ) → Prop where
  | create (action : q.action = IResourceHolder.get) (free : q.resource.reserved = false) :
      Granted q none (some (q.resource.reservedBy q.transactionId q.clock))
        (some (q.resource.reservedBy q.transactionId q.clock))
  | take (action : q.action = IResourceHolder.get) (found : ResourceImpl δ)
      (free : found.reserved = false) :
      Granted q (some found) (some (found.reservedBy q.transactionId q.clock))
        (some (found.reservedBy q.transactionId q.clock))
  | put (action : q.action = IResourceHolder.put) (found : ResourceImpl δ)
      (held : found.reserved = true) (own : found.transactionId = q.transactionId) :
      Granted q (some found) none (some { found.unreserved q.clock with data := q.data })
  | release (action : q.action = IResourceHolder.release) (found : ResourceImpl δ)
      (held : found.reserved = true) (own : found.transactionId = q.transactionId) :
      Granted q (some found) none (some (found.unreserved q.clock))
  | read (action : q.action = IResourceHolder.read) (found : ResourceImpl δ) :
      Granted q (some found) (some found) (some found)
  | delete (action : q.action = IResourceHolder.delete) (found : ResourceImpl δ) :
      Granted q (some found) none none
  | unknown (unknown : ¬ Known q.action) (entry : Option (ResourceImpl δ)) :
      Granted q entry none entry

theorem unreserveOutcome_ok {action : Bytes} {write : ResourceImpl δ → ResourceImpl δ}
    {given : ResourceImpl δ} {now : Clock} {entry : Option (ResourceImpl δ)}
    {p : Option (ResourceImpl δ) × Option (ResourceImpl δ)}
    (ok : ResourceHolderImpl.unreserveOutcome action write given now entry = .ok p) :
    ∃ found, entry = some found ∧ found.reserved = true ∧
      found.transactionId = given.transactionId ∧
      p = (none, some (write (found.unreserved now))) := by
  cases entry with
  | none => cases ok
  | some found =>
    rw [ResourceHolderImpl.unreserveOutcome] at ok
    split at ok
    · cases ok
    rename_i held
    split at ok
    · cases ok
    · rename_i own
      cases ok
      exact ⟨found, rfl, by simpa using held, by simpa using own, rfl⟩

theorem getOutcome_ok {given : ResourceImpl δ} {now : Clock} {entry : Option (ResourceImpl δ)}
    {p : Option (ResourceImpl δ) × Option (ResourceImpl δ)}
    (ok : ResourceHolderImpl.getOutcome given now entry = .ok p) :
    ∃ r, (entry = some r ∨ entry = none ∧ r = given) ∧ r.reserved = false ∧
      p = (some (r.reservedBy given.transactionId now),
        some (r.reservedBy given.transactionId now)) := by
  cases entry with
  | none =>
    rw [ResourceHolderImpl.getOutcome] at ok
    split at ok
    · cases ok
    · rename_i free
      cases ok
      exact ⟨given, Or.inr ⟨rfl, rfl⟩, by simpa using free, rfl⟩
  | some found =>
    rw [ResourceHolderImpl.getOutcome] at ok
    split at ok
    · cases ok
    · rename_i free
      cases ok
      exact ⟨found, Or.inl rfl, by simpa using free, rfl⟩

theorem granted_of_ok {q : Request δ} {entry : Option (ResourceImpl δ)}
    {p : Option (ResourceImpl δ) × Option (ResourceImpl δ)} (ok : q.outcome entry = .ok p) :
    Granted q entry p.1 p.2 := by
  by_cases known : Known q.action
  · rcases known with action | action | action | action | action
    · rw [outcome_get entry action] at ok
      obtain ⟨r, rfl | ⟨rfl, rfl⟩, free, rfl⟩ := getOutcome_ok ok
      · exact .take action r free
      · exact .create action free
    · rw [outcome_put entry action] at ok
      obtain ⟨found, rfl, held, own, rfl⟩ := unreserveOutcome_ok ok
      exact .put action found held own
    · rw [outcome_release entry action] at ok
      obtain ⟨found, rfl, held, own, rfl⟩ := unreserveOutcome_ok ok
      exact .release action found held own
    · rw [outcome_read entry action] at ok
      cases entry with
      | none => cases ok
      | some found =>
        cases ok
        exact .read action found
    · rw [outcome_delete entry action] at ok
      cases entry with
      | none => cases ok
      | some found =>
        cases ok
        exact .delete action found
  · rw [outcome_unknown entry known] at ok
    cases ok
    exact .unknown known entry

end Inversion

end ResourceManager
