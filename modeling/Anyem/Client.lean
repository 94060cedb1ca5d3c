import Anyem.Resource

/-!
# The client object and its public calls

A client keeps one resource, and with it the transaction id that unlocks what
it reserved. `get`, `read` and `delete` put a new resource in its place; `put`
and `release` send the one that is there. What the client sends and receives is
taken as the wrapper itself, not as its serialization. `NULL` data are `none`.
-/

namespace Client

open Resource ThrowingMethods

variable {δ : Type}

structure ClientImpl (δ : Type) where
  resourceIdentifier : ResourceIdentifierImpl
  resource : Option (ResourceImpl (Option δ))

namespace ClientImpl

/-- `execute` up to the write to the socket: the wrapper that it writes. -/
def execute (action : Bytes) : Method Throwable (ClientImpl δ) (ResourceWrapper (Option δ)) := do
  let this ← get
  return ⟨this.resource, action⟩

/-- Assign a new resource, with the string that its `uniqid` returns. -/
def newResource (data : Option δ) (uniqid : Bytes) : Method Throwable (ClientImpl δ) Unit :=
  modify fun this => { this with
    resource := some (ResourceImpl.construct (some this.resourceIdentifier) data uniqid) }

def get (data : Option δ) (uniqid : Bytes) :
    Method Throwable (ClientImpl δ) (ResourceWrapper (Option δ)) := do
  newResource data uniqid
  execute IResourceHolder.get

def put (data : Option δ) : Method Throwable (ClientImpl δ) (ResourceWrapper (Option δ)) := do
  onPart ClientImpl.resource (fun r this => { this with resource := some r })
    (.memberCall (ascii "setData")) (ResourceImpl.setData data)
  execute IResourceHolder.put

def release : Method Throwable (ClientImpl δ) (ResourceWrapper (Option δ)) :=
  execute IResourceHolder.release

def read (uniqid : Bytes) : Method Throwable (ClientImpl δ) (ResourceWrapper (Option δ)) := do
  newResource none uniqid
  execute IResourceHolder.read

def delete (uniqid : Bytes) : Method Throwable (ClientImpl δ) (ResourceWrapper (Option δ)) := do
  newResource none uniqid
  execute IResourceHolder.delete

/-- The transaction id of the resource that the client keeps. -/
def token (this : ClientImpl δ) : Option (Option Bytes) :=
  this.resource.map ResourceImpl.transactionId

end ClientImpl

/-- The public methods of a client that talk to the server. -/
inductive Call (δ : Type) where
  | get (data : Option δ)
  | put (data : Option δ)
  | release
  | read
  | delete

namespace Call

def action : Call δ → Bytes
  | .get _ => IResourceHolder.get
  | .put _ => IResourceHolder.put
  | .release => IResourceHolder.release
  | .read => IResourceHolder.read
  | .delete => IResourceHolder.delete

/-- One run of the method up to the write to the socket. -/
def run (uniqid : Bytes) : Call δ → Method Throwable (ClientImpl δ) (ResourceWrapper (Option δ))
  | .get data => ClientImpl.get data uniqid
  | .put data => ClientImpl.put data
  | .release => ClientImpl.release
  | .read => ClientImpl.read uniqid
  | .delete => ClientImpl.delete uniqid

/-- The calls that give a reservation back. -/
def Closes : Call δ → Prop
  | .put _ | .release => True
  | .get _ | .read | .delete => False

theorem closes_iff_action (call : Call δ) : call.Closes ↔
    (call.action = IResourceHolder.put ∨ call.action = IResourceHolder.release) := by
  cases call with
  | put data => exact iff_of_true trivial (Or.inl rfl)
  | release => exact iff_of_true trivial (Or.inr rfl)
  | get data | read | delete =>
    simp only [Closes, action]
    decide

/-- A call that does not close sends a new resource, and keeps it. -/
theorem run_renews {call : Call δ} (renews : ¬ call.Closes) (uniqid : Bytes)
    (this : ClientImpl δ) :
    ∃ data, call.run uniqid this =
      .ok ⟨some (ResourceImpl.construct (some this.resourceIdentifier) data uniqid), call.action⟩
        { this with
          resource :=
            some (ResourceImpl.construct (some this.resourceIdentifier) data uniqid) } := by
  cases call with
  | get data => exact ⟨data, rfl⟩
  | put data => exact False.elim (renews trivial)
  | release => exact False.elim (renews trivial)
  | read => exact ⟨none, rfl⟩
  | delete => exact ⟨none, rfl⟩

/-- A call that closes sends the resource that the client keeps, with the same
transaction id and perhaps other data. -/
theorem run_keeps {call : Call δ} (closes : call.Closes) (uniqid : Bytes) {this : ClientImpl δ}
    {r : ResourceImpl (Option δ)} (kept : this.resource = some r) :
    ∃ data, call.run uniqid this =
      .ok ⟨some { r with data := data }, call.action⟩
        { this with resource := some { r with data := data } } := by
  cases call with
  | get data => exact False.elim closes
  | put data =>
    refine ⟨data, ?_⟩
    have set := onPart_ok ClientImpl.resource kept
      (fun r this => { this with resource := some r }) (Throwable.memberCall (ascii "setData"))
      (show ResourceImpl.setData data r = .ok () { r with data := data } from rfl)
    rw [run, ClientImpl.put, bind_ok set]
    rfl
  | release =>
    refine ⟨r.data, ?_⟩
    cases this
    cases kept
    rfl
  | read => exact False.elim closes
  | delete => exact False.elim closes

/-- Before the client has a resource, `put` throws and `release` sends `NULL`. -/
theorem run_without {call : Call δ} (closes : call.Closes) (uniqid : Bytes) {this : ClientImpl δ}
    (kept : this.resource = none) :
    (∃ e, call.run uniqid this = .error e this) ∨
      call = .release ∧ call.run uniqid this = .ok ⟨none, call.action⟩ this := by
  cases call with
  | get data => exact False.elim closes
  | put data =>
    have threw := onPart_none ClientImpl.resource kept
      (fun r this => { this with resource := some r }) (Throwable.memberCall (ascii "setData"))
      (ResourceImpl.setData data)
    exact Or.inl ⟨_, bind_error threw _⟩
  | release =>
    refine Or.inr ⟨rfl, ?_⟩
    cases this
    cases kept
    rfl
  | read => exact False.elim closes
  | delete => exact False.elim closes

end Call

/-- A public call that is under way. A method of `ClientImpl` runs once; one of
`AnyemClientImpl` goes through `action`, which counts `maxAttempt` down. -/
structure Invocation (δ : Type) where
  call : Call δ
  maxAttempt : Option Int

/-- The end of one pass of the loop in `action`: the invocation that goes around
again, or `none` when the call returns or throws. A missing code compares as 0. -/
def Invocation.again (invocation : Invocation δ) (response : ResponseWrapperImpl (Option δ)) :
    Option (Invocation δ) :=
  match invocation.maxAttempt with
  | none => none
  | some ma =>
    if response.responseCode.getD 0 ≠ IResponseWrapper.successResponseCode then
      if ma - 1 ≥ 0 then some { invocation with maxAttempt := some (ma - 1) } else none
    else none

theorem Invocation.again_success (invocation : Invocation δ)
    {response : ResponseWrapperImpl (Option δ)}
    (success : response.responseCode = some IResponseWrapper.successResponseCode) :
    invocation.again response = none := by
  rw [Invocation.again]
  cases invocation.maxAttempt with
  | none => rfl
  | some ma =>
    simp only [success, Option.getD_some]
    rfl

theorem Invocation.again_call {invocation next : Invocation δ}
    {response : ResponseWrapperImpl (Option δ)}
    (more : invocation.again response = some next) : next.call = invocation.call := by
  rw [Invocation.again] at more
  cases hma : invocation.maxAttempt with
  | none =>
    rw [hma] at more
    cases more
  | some ma =>
    simp only [hma] at more
    split at more
    · split at more
      · cases more
        rfl
      · cases more
    · cases more

end Client
