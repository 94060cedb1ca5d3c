import Anyem.WireMessages

/-!
# Exchanges over a stream that cuts

A client connects, writes its request, and reads the answer; the stream may cut
either message anywhere, and the write of the answer or the read of it may fail.
A request that was cut is never carried out: it ends the server, with the pool
as it was. An answer that was cut is read as `FALSE`. So a run of exchanges is
the run of the requests that came whole, and every response that a client gets
is the one that the server gave to its request.
-/

namespace Exchanges

open ByteStream ReplyMachine Separators ThrowingMethods Resource ResourceHolder ResourceManager
  PoolCells Server Framing WholeMessages SerializedValues WireMessages

variable {φ : Type}

/-- The server process with its pool. -/
structure Process (φ : Type) where
  pool : Pool (Option (Datum φ))
  up : Bool

/-- What a client sends in one exchange, and what the sockets do. When there is
no answer to read, `socket_read` gives `FALSE` or the empty string. -/
structure Exchange (φ : Type) where
  wrapper : ResourceWrapper (Option (Datum φ))
  toServer : (message : Bytes) → Passage message
  toClient : (message : Bytes) → Passage message
  written : Bool
  reset : Bool
  reason : Bytes
  clock : Clock

variable (float : FloatText φ) (limit : ℕ)

namespace Exchange

def message (x : Exchange φ) : Bytes := clientRequest (clientPhp float) x.wrapper

/-- The turn of the server that takes the request. -/
def connection (x : Exchange φ) : Connection :=
  serverSide limit (x.toServer (x.message float)) x.written x.clock

/-- The sockets of the client, with the bytes that the server wrote. -/
def socket (x : Exchange φ) : Option Bytes → ClientSocket
  | some reply => clientSide limit (x.toClient reply) (x.toServer (x.message float)).accepted
  | none => ⟨some (x.toServer (x.message float)).accepted,
      if x.reset then none else some [], x.reason⟩

end Exchange

/-- One exchange: what `execute` returns or throws, and the process after it. -/
def step (s : Process φ) (x : Exchange φ) :
    Except Throwable (Option (ResponseWrapperImpl (Option (Datum φ)))) × Process φ :=
  if s.up = true then
    match serverTurn (php float) (x.connection float limit) s.pool with
    | .ok reply pool => (execute (clientPhp float) (x.socket float limit reply), ⟨pool, true⟩)
    | .error _ pool => (execute (clientPhp float) (x.socket float limit none), ⟨pool, false⟩)
  else (.error (.exception (ascii "socket_connect, reason : " ++ x.reason)), s)

def start : Process φ := ⟨emptyPool, true⟩

/-- The request that the server gets, if it comes whole and is one. -/
def Exchange.request (x : Exchange φ) : Option (Request (Option (Datum φ))) :=
  if (x.toServer (x.message float)).read limit = x.message float then
    match x.wrapper.resource with
    | none => none
    | some r => match identified : r.resourceIdentifier with
      | none => none
      | some i => some ⟨x.wrapper.action, r, i, identified, x.clock⟩
  else none

/-- The answer comes to the client whole. -/
def Exchange.Delivers (x : Exchange φ) (response : ResponseWrapperImpl (Option (Datum φ))) : Prop :=
  x.written = true ∧ (x.toClient ((php float).serialize response)).read limit =
    (php float).serialize response

/-- The requests up to the first one that does not come whole. -/
def requests : List (Exchange φ) → List (Request (Option (Datum φ)))
  | [] => []
  | x :: xs => match x.request float limit with
    | none => []
    | some q => q :: requests xs

section OneExchange

variable {float limit} {x : Exchange φ}

theorem request_some {q : Request (Option (Datum φ))} (request : x.request float limit = some q) :
    (x.toServer (x.message float)).read limit = x.message float ∧ q.wrapper = some x.wrapper ∧
      q.clock = x.clock := by
  rw [Exchange.request] at request
  split at request
  · rename_i whole
    split at request
    · cases request
    · rename_i r resource
      split at request
      · cases request
      · rename_i i identified
        cases request
        refine ⟨whole, ?_, rfl⟩
        rw [Request.wrapper, ← resource]
  · cases request

/-- A front part of a request that the server can cut a header off. -/
theorem body_cut {w : ResourceWrapper (Option (Datum φ))} {p header body : Bytes}
    (front : p <+: clientRequest (clientPhp float) w) (cut : p ≠ clientRequest (clientPhp float) w)
    (split : Separators.cut headerEnd p = some (header, body)) :
    unserialize float body = none := by
  obtain ⟨more, joined⟩ := front
  obtain ⟨rfl, only⟩ := (cut_eq_some_iff headerEnd_ne_nil).mp split
  have whole : Separators.cut headerEnd (clientRequest (clientPhp float) w) =
      some (header, body ++ more) := by
    rw [cut_eq_some_iff headerEnd_ne_nil, ← joined]
    exact ⟨List.append_assoc _ _ _, only⟩
  rw [clientRequest, cut_framed] at whole
  have same : (clientPhp float).serialize w = body ++ more :=
    (Prod.mk.inj (Option.some.inj whole)).2
  refine request_text_cut float w ⟨more, same.symm⟩ ?_
  intro all
  rw [all] at same
  have nothingLeft : more = [] := List.append_cancel_left (same.symm.trans (List.append_nil _).symm)
  rw [nothingLeft, List.append_nil] at joined
  exact cut joined

theorem request_of {r : ResourceImpl (Option (Datum φ))} {i : ResourceIdentifierImpl}
    (whole : (x.toServer (x.message float)).read limit = x.message float)
    (resource : x.wrapper.resource = some r) (identified : r.resourceIdentifier = some i) :
    ∃ q, x.request float limit = some q := by
  rw [Exchange.request, if_pos whole]
  split
  · rename_i absent
    cases resource.symm.trans absent
  · rename_i r' present
    cases resource.symm.trans present
    split
    · rename_i absent
      cases identified.symm.trans absent
    · exact ⟨_, rfl⟩

/-- A turn on a request that came whole is one step of `serve`. -/
theorem turn_request {q : Request (Option (Datum φ))} (request : x.request float limit = some q)
    (pool : Pool (Option (Datum φ))) :
    serverTurn (php float) (x.connection float limit) pool =
      .ok (if x.written = true then some ((php float).serialize (serve pool q).1) else none)
        (serve pool q).2 := by
  obtain ⟨whole, wrapped, clock⟩ := request_some request
  have read : (x.connection float limit).clientRequest = some (x.message float) :=
    congrArg some whole
  have back := request_back float x.wrapper []
  rw [List.append_nil, ← wrapped] at back
  exact serverTurn_request (php float) pool q rfl read (cut_framed _) back clock

/-- A turn on anything else ends the server, with the pool as it was. -/
theorem turn_ends (missing : x.request float limit = none) (pool : Pool (Option (Datum φ))) :
    ∃ ex, serverTurn (php float) (x.connection float limit) pool = .error ex pool := by
  refine serverTurn_other (php float) pool rfl rfl ?_
  intro header body action resource i split unserialized identified
  by_cases whole : (x.toServer (x.message float)).read limit = x.message float
  · rw [whole, Exchange.message, clientRequest, cut_framed] at split
    cases split
    have back := request_back float x.wrapper []
    rw [List.append_nil, unserialized] at back
    have carried : x.wrapper.resource = some resource := by rw [← Option.some.inj back]
    obtain ⟨q, request⟩ := request_of whole carried identified
    cases missing.symm.trans request
  · rw [php_unserialize, body_cut ((x.toServer (x.message float)).read_front limit) whole split]
      at unserialized
    cases unserialized

/-- Without an answer on the stream there is no response. -/
theorem silent_answer (x : Exchange φ) (r : ResponseWrapperImpl (Option (Datum φ))) :
    execute (clientPhp float) (x.socket float limit none) ≠ .ok (some r) := by
  have empty : (clientPhp float).unserialize [] = none := rfl
  intro answered
  obtain ⟨b, read, back⟩ := (execute_eq_ok_iff _ _ _).mp answered
  change (if x.reset then none else some []) = some b at read
  split at read
  · cases read
  · cases read
    cases empty.symm.trans back

/-- The client gets the server's answer, or none. -/
theorem answer_iff (x : Exchange φ) (q : Request (Option (Datum φ)))
    (pool : Pool (Option (Datum φ))) (r : ResponseWrapperImpl (Option (Datum φ))) :
    execute (clientPhp float) (x.socket float limit
        (if x.written = true then some ((php float).serialize (serve pool q).1) else none)) =
      .ok (some r) ↔ (serve pool q).1 = r ∧ x.Delivers float limit r := by
  have code := code_bounded pool q
  by_cases written : x.written = true
  · rw [if_pos written, execute_eq_ok_iff]
    let reply : Bytes := (php float).serialize (serve pool q).1
    change (∃ b, some ((x.toClient reply).read limit) = some b ∧ _) ↔ _
    constructor
    · rintro ⟨b, read, back⟩
      cases read
      by_cases whole : (x.toClient reply).read limit = reply
      · have whole_back := response_back float code []
        rw [List.append_nil] at whole_back
        rw [whole, whole_back] at back
        cases back
        exact ⟨rfl, written, whole⟩
      · rw [response_cut float code ((x.toClient reply).read_front limit) whole] at back
        cases back
    · rintro ⟨rfl, -, whole⟩
      have back := response_back float code []
      rw [List.append_nil] at back
      exact ⟨_, rfl, by rw [whole, back]⟩
  · rw [if_neg written]
    exact iff_of_false (silent_answer x r) fun both => written both.2.1

end OneExchange

section Runs

variable {float limit}

theorem step_request {x : Exchange φ} {q : Request (Option (Datum φ))}
    (request : x.request float limit = some q) (pool : Pool (Option (Datum φ))) :
    step float limit ⟨pool, true⟩ x = (execute (clientPhp float) (x.socket float limit
        (if x.written = true then some ((php float).serialize (serve pool q).1) else none)),
      ⟨(serve pool q).2, true⟩) := by
  rw [step, if_pos rfl]
  simp only [turn_request request pool]

theorem step_ends {x : Exchange φ} (missing : x.request float limit = none)
    (pool : Pool (Option (Datum φ))) :
    step float limit ⟨pool, true⟩ x =
      (execute (clientPhp float) (x.socket float limit none), ⟨pool, false⟩) := by
  obtain ⟨ex, threw⟩ := turn_ends missing pool
  rw [step, if_pos rfl]
  simp only [threw]

variable (float limit) in
/-- Client `i` of the run gets the response `r`. -/
def Gets (s : Process φ) (xs : List (Exchange φ)) (i : ℕ)
    (r : ResponseWrapperImpl (Option (Datum φ))) : Prop :=
  (replies (step float limit) s xs)[i]? = some (Except.ok (some r))

theorem gets_zero (s : Process φ) (x : Exchange φ) (xs : List (Exchange φ))
    (r : ResponseWrapperImpl (Option (Datum φ))) :
    Gets float limit s (x :: xs) 0 r ↔ (step float limit s x).1 = .ok (some r) :=
  ⟨fun got => Option.some.inj got, fun got => congrArg some got⟩

theorem gets_succ (s : Process φ) (x : Exchange φ) (xs : List (Exchange φ)) (i : ℕ)
    (r : ResponseWrapperImpl (Option (Datum φ))) :
    Gets float limit s (x :: xs) (i + 1) r ↔ Gets float limit (step float limit s x).2 xs i r :=
  Iff.rfl

/-- The server has ended: nothing is answered any more. -/
theorem down_run (pool : Pool (Option (Datum φ))) (xs : List (Exchange φ)) :
    final (step float limit) ⟨pool, false⟩ xs = ⟨pool, false⟩ ∧
      ∀ i r, ¬ Gets float limit ⟨pool, false⟩ xs i r := by
  induction xs with
  | nil => exact ⟨rfl, fun i r got => by cases got⟩
  | cons x xs ih =>
    refine ⟨ih.1, ?_⟩
    intro i r got
    cases i with
    | zero => cases got
    | succ i => exact ih.2 i r got

theorem run_from (pool : Pool (Option (Datum φ))) (xs : List (Exchange φ)) :
    final (step float limit) ⟨pool, true⟩ xs =
      ⟨final serve pool (requests float limit xs),
        decide ((requests float limit xs).length = xs.length)⟩ ∧
    ∀ i x r, xs[i]? = some x → (Gets float limit ⟨pool, true⟩ xs i r ↔
      (replies serve pool (requests float limit xs))[i]? = some r ∧ x.Delivers float limit r) := by
  induction xs generalizing pool with
  | nil => exact ⟨rfl, fun i x r here => by cases here⟩
  | cons x xs ih =>
    cases request : x.request float limit with
    | none =>
      obtain ⟨ended, silent⟩ := down_run pool xs
      have cut : requests float limit (x :: xs) = [] := by simp only [requests, request]
      have first := step_ends request pool
      rw [cut]
      constructor
      · change final (step float limit) (step float limit ⟨pool, true⟩ x).2 xs = _
        rw [first, ended]
        rfl
      · intro i x' r here
        refine iff_of_false ?_ (fun both => by cases both.1)
        cases i with
        | zero =>
          rw [gets_zero, first]
          exact silent_answer x r
        | succ i =>
          rw [gets_succ, first]
          exact silent i r
    | some q =>
      obtain ⟨finals, answers⟩ := ih (serve pool q).2
      have more : requests float limit (x :: xs) = q :: requests float limit xs := by
        simp only [requests, request]
      have first := step_request request pool
      rw [more]
      constructor
      · change final (step float limit) (step float limit ⟨pool, true⟩ x).2 xs = _
        rw [first, finals]
        simp [final]
      · intro i x' r here
        cases i with
        | zero =>
          cases here
          rw [gets_zero, first, answer_iff]
          exact and_congr_left fun _ => (Option.some_inj (a := (serve pool q).1)).symm
        | succ i =>
          rw [gets_succ, first]
          exact answers i x' r here

/-- In a run of exchanges the server carries out the requests that come whole,
up to the first that does not, and a client gets a response exactly when its
request is among them and the answer comes whole: the server's answer to it. -/
theorem exchanges_serve_whole_requests (float : FloatText φ) (limit : ℕ)
    (xs : List (Exchange φ)) :
    final (step float limit) start xs =
      ⟨final serve emptyPool (requests float limit xs),
        decide ((requests float limit xs).length = xs.length)⟩ ∧
    ∀ i x r, xs[i]? = some x → (Gets float limit start xs i r ↔
      (replies serve emptyPool (requests float limit xs))[i]? = some r ∧
        x.Delivers float limit r) :=
  run_from emptyPool xs

end Runs

end Exchanges
