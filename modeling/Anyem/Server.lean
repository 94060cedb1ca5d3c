import Anyem.PoolCells

/-!
# The accept loop of the server

One turn accepts a connection, reads it, cuts the header off, lets the manager
work and writes the response back. Failures of the socket calls go on to the
next turn. A throw leaves the loop: neither `extractWrapper` nor the work of
`manage` on what is not a request is inside a `try` that stops it. The loop is
the same for any manager; `serverTurn` is its turn on the requests that clients
build.
-/

namespace Server

open Separators ThrowingMethods ReplyMachine Resource ResourceHolder ResourceManager PoolCells

variable {σ δ : Type}

/-- `explode` with a limit of two pieces. -/
def explode (delimiter string : Bytes) : List Bytes :=
  match cut delimiter string with
  | none => [string]
  | some (first, rest) => [first, rest]

def headerEnd : Bytes := ascii "\r\n\r\n"

def extractWrapper (clientRequest : Bytes) : Method Throwable σ Bytes := do
  let t := explode headerEnd clientRequest
  if t.length ≠ 2 then
    throw (.exception (ascii "bad client request, transaction will be aborted"))
  return t.getD 1 []

/-- What the socket calls of one turn return: whether `socket_accept` and
`socket_write` succeed, and what `socket_read` gives, with `none` for `FALSE`. -/
structure Connection where
  accepted : Bool
  clientRequest : Option Bytes
  written : Bool
  clock : Clock

section Loop

variable (manage : Bytes → Clock → Method Throwable σ Bytes)

/-- One turn of the loop, with the response that was written. -/
def turn (c : Connection) : Method Throwable σ (Option Bytes) :=
  if c.accepted = false then return none
  else match c.clientRequest with
    | none => return none
    | some clientRequest => do
      let resourceWrapper ← extractWrapper clientRequest
      let serverResponse ← manage resourceWrapper c.clock
      if c.written = false then return none
      return some serverResponse

/-- The loop over the connections that come in. -/
def server : List Connection → Method Throwable σ (List (Option Bytes))
  | [] => return []
  | c :: cs => do
    let response ← turn manage c
    let responses ← server cs
    return response :: responses

variable {manage} (s : σ)

theorem extractWrapper_bad {clientRequest : Bytes}
    (headless : cut headerEnd clientRequest = none) :
    extractWrapper clientRequest s =
      .error (.exception (ascii "bad client request, transaction will be aborted")) s := by
  simp only [extractWrapper, explode, headless]
  rfl

theorem extractWrapper_good {clientRequest header body : Bytes}
    (split : cut headerEnd clientRequest = some (header, body)) :
    extractWrapper clientRequest s = .ok body s := by
  simp only [extractWrapper, explode, split]
  rfl

theorem turn_skips {c : Connection}
    (silent : ∀ b, c.accepted = true → c.clientRequest ≠ some b) :
    turn manage c s = .ok none s := by
  cases accepted : c.accepted with
  | false =>
    rw [turn, if_pos accepted]
    rfl
  | true =>
    cases read : c.clientRequest with
    | none =>
      rw [turn, if_neg (by simp [accepted]), read]
      rfl
    | some b => exact False.elim (silent b accepted read)

variable (manage) in
theorem turn_read {c : Connection} {clientRequest : Bytes} (accepted : c.accepted = true)
    (read : c.clientRequest = some clientRequest) :
    turn manage c = (do
      let resourceWrapper ← extractWrapper clientRequest
      let serverResponse ← manage resourceWrapper c.clock
      if c.written = false then return none
      return some serverResponse) := by
  rw [turn, if_neg (by simp [accepted]), read]

variable {s} {c : Connection} {clientRequest : Bytes} (accepted : c.accepted = true)
  (read : c.clientRequest = some clientRequest)

include accepted read

theorem turn_headless (headless : cut headerEnd clientRequest = none) :
    ∃ ex, turn manage c s = .error ex s := by
  rw [turn_read manage accepted read]
  exact ⟨_, bind_error (extractWrapper_bad s headless) _⟩

/-- A turn goes on when `manage` returns, and ends the loop when it throws. -/
theorem turn_managed {header body : Bytes}
    (split : cut headerEnd clientRequest = some (header, body)) :
    turn manage c s = match manage body c.clock s with
      | .ok serverResponse s' =>
        .ok (if c.written = true then some serverResponse else none) s'
      | .error ex s' => .error ex s' := by
  rw [turn_read manage accepted read, bind_ok (extractWrapper_good s split)]
  cases managed : manage body c.clock s with
  | error ex s' => rw [bind_error managed]
  | ok serverResponse s' =>
    rw [bind_ok managed]
    cases c.written <;> rfl

end Loop

section TypedRequests

/-- One turn of the loop on requests whose properties have their declared types. -/
def serverTurn (php : Serializer δ) (c : Connection) :
    Method Throwable (Pool δ) (Option Bytes) :=
  turn (manage php) c

variable (php : Serializer δ) (pool : Pool δ)

/-- The manager answers a request. -/
theorem manage_request (q : Request δ) {body : Bytes}
    (unserialized : php.unserialize body = q.wrapper) :
    manage php body q.clock pool = .ok (php.serialize (serve pool q).1) (serve pool q).2 := by
  rw [manage, unserialized, bind_ok (manageWrapper_serve pool q), pure_run]

/-- On anything else a method is called that the value does not have. This is
not an `Exception`, so the `catch` of `manage` lets it through. -/
theorem manage_other {body : Bytes} (now : Clock)
    (other : ∀ action resource i, php.unserialize body = some ⟨some resource, action⟩ →
      resource.resourceIdentifier ≠ some i) :
    ∃ method, manage php body now pool = .error (.memberCall method) pool := by
  have lets : ∀ method, manageWrapper (php.unserialize body) now pool =
      .error (.memberCall method) pool →
      ∃ method, manage php body now pool = .error (.memberCall method) pool := by
    intro method threw
    exact ⟨method, by rw [manage, bind_error threw]⟩
  cases unserialized : php.unserialize body with
  | none =>
    apply lets (ascii "getAction")
    rw [unserialized]
    rfl
  | some w =>
    obtain ⟨resource, action⟩ := w
    cases resource with
    | none =>
      apply lets (ascii "getResourceIdenitifier")
      rw [unserialized]
      rfl
    | some r =>
      have anonymous : r.resourceIdentifier = none := by
        cases identified : r.resourceIdentifier with
        | none => rfl
        | some i => exact False.elim (other action r i unserialized identified)
      have unbuilt : ResourceHolderImpl.construct pool action (some r) =
          .error (.memberCall (ascii "getUrl")) := by
        simp only [ResourceHolderImpl.construct, anonymous]
      apply lets (ascii "getUrl")
      rw [unserialized]
      simp only [manageWrapper, tryCatch_run, getAction, getResource, bind_run, pure_run,
        executeHolder, unbuilt, throw_run]

/-- A turn on a request is one step of `serve`. -/
theorem serverTurn_request (q : Request δ) {c : Connection} {clientRequest header body : Bytes}
    (accepted : c.accepted = true) (read : c.clientRequest = some clientRequest)
    (split : cut headerEnd clientRequest = some (header, body))
    (unserialized : php.unserialize body = q.wrapper) (clock : q.clock = c.clock) :
    serverTurn php c pool =
      .ok (if c.written = true then some (php.serialize (serve pool q).1) else none)
        (serve pool q).2 := by
  rw [serverTurn, turn_managed accepted read split, ← clock, manage_request php pool q unserialized]

/-- A turn on anything else ends the loop, with the pool as it was. -/
theorem serverTurn_other {c : Connection} {clientRequest : Bytes}
    (accepted : c.accepted = true) (read : c.clientRequest = some clientRequest)
    (other : ∀ header body action resource i, cut headerEnd clientRequest = some (header, body) →
      php.unserialize body = some ⟨some resource, action⟩ →
      resource.resourceIdentifier ≠ some i) :
    ∃ ex, serverTurn php c pool = .error ex pool := by
  cases split : cut headerEnd clientRequest with
  | none => exact turn_headless accepted read split
  | some parts =>
    obtain ⟨header, body⟩ := parts
    obtain ⟨method, threw⟩ := manage_other php pool c.clock
      (fun action resource i => other header body action resource i split)
    exact ⟨_, by rw [serverTurn, turn_managed accepted read split, threw]⟩

end TypedRequests

end Server
