import Anyem.ByteStream
import Anyem.Client
import Anyem.Serialization

/-!
# Messages on the sockets

Either side writes its message with one `socket_write`, looks at the result for
`FALSE` only, and reads the other's message with one `socket_read`. The stream
between them may take a part of what is written and cut what it took.
-/

namespace WholeMessages

open ByteStream ThrowingMethods Resource ResourceHolder ResourceManager Server Framing

variable {δ : Type}

/-- PHP's own functions, as `execute` uses them on what the server answers, with
`none` for `FALSE`. -/
structure ClientSerializer (δ : Type) where
  serialize : ResourceWrapper (Option δ) → Bytes
  unserialize : Bytes → Option (ResponseWrapperImpl (Option δ))

section Source

variable (php : ClientSerializer δ)

/-- What `execute` writes to the socket. -/
def clientRequest (resourceWrapper : ResourceWrapper (Option δ)) : Bytes :=
  clientHeader ++ php.serialize resourceWrapper

/-- What `socket_write` and `socket_read` return to `execute`, with `none` for
`FALSE`, and the text of `socket_strerror`. -/
structure ClientSocket where
  result : Option ℕ
  serverResponse : Option Bytes
  reason : Bytes

/-- `execute` from the write to the socket on. -/
def execute (socket : ClientSocket) :
    Except Throwable (Option (ResponseWrapperImpl (Option δ))) :=
  match socket.result with
  | none => .error (.exception (ascii "socket_write, reason : " ++ socket.reason))
  | some _ =>
    match socket.serverResponse with
    | none => .error (.exception (ascii "socket_read,reason : " ++ socket.reason))
    | some serverResponse => .ok (php.unserialize serverResponse)

/-- The bytes that `execute` hands to `unserialize`. -/
def ClientSocket.unserialized (socket : ClientSocket) : Option Bytes :=
  socket.result.bind fun _ => socket.serverResponse

theorem execute_eq_ok_iff (socket : ClientSocket) (r : Option (ResponseWrapperImpl (Option δ))) :
    execute php socket = .ok r ↔ ∃ b, socket.unserialized = some b ∧ php.unserialize b = r := by
  rw [execute, ClientSocket.unserialized]
  cases socket.result with
  | none => simp
  | some count =>
    cases socket.serverResponse with
    | none => simp
    | some b => simp

/-- The bytes that a turn of the server hands to `extractWrapper`. -/
def handed (c : Connection) : Option Bytes := if c.accepted then c.clientRequest else none

theorem serverTurn_handed (php : Serializer δ) (c : Connection) :
    serverTurn php c = match handed c with
      | none => return none
      | some b => do
        let resourceWrapper ← extractWrapper b
        let serverResponse ← manage php resourceWrapper c.clock
        if c.written = false then return none
        return some serverResponse := by
  cases accepted : c.accepted with
  | false =>
    rw [handed, serverTurn, turn, accepted]
    rfl
  | true =>
    rw [handed, if_pos accepted]
    cases read : c.clientRequest with
    | none =>
      rw [serverTurn, turn, if_neg (by simp [accepted]), read]
    | some b => exact turn_read (manage php) accepted read

end Source

section Passages

variable {message : Bytes}

/-- The turn of the server that reads a message off the stream. -/
def serverSide (limit : ℕ) (p : Passage message) (written : Bool) (clock : Clock) : Connection :=
  ⟨true, some (p.read limit), written, clock⟩

/-- The sockets of a client that reads a message off the stream, after the write
of its own request took `count` bytes. -/
def clientSide (limit : ℕ) (p : Passage message) (count : ℕ) : ClientSocket :=
  ⟨some count, some (p.read limit), []⟩

/-- A request of proper length gets to `extractWrapper`, and a reply of proper
length to `unserialize`, exactly when the one write takes it whole and it arrives
in one piece. -/
theorem message_crosses_iff_whole (php : Serializer (Option δ)) (client : ClientSerializer δ)
    (limit : ℕ) :
    (∀ (resourceWrapper : ResourceWrapper (Option δ))
        (p : Passage (clientRequest client resourceWrapper)) (written : Bool) (clock : Clock),
      (clientRequest client resourceWrapper).length ≤ limit →
      (handed (serverSide limit p written clock) = some (clientRequest client resourceWrapper) ↔
        p.Whole)) ∧
    ∀ (resourceWrapper : Bytes) (clock : Clock) (pool pool' : Pool (Option δ)) (reply : Bytes)
        (p : Passage reply) (count : ℕ),
      manage php resourceWrapper clock pool = .ok reply pool' → reply.length ≤ limit →
      ((clientSide limit p count).unserialized = some reply ↔ p.Whole) := by
  constructor
  · intro resourceWrapper p written clock short
    rw [← Passage.read_eq_iff short]
    exact Option.some_inj
  · intro resourceWrapper clock pool pool' reply p count _ short
    rw [← Passage.read_eq_iff short]
    exact Option.some_inj

/-- The passage in which the header and the wrapper come one after the other. -/
def cutAfterHeader (client : ClientSerializer δ) (resourceWrapper : ResourceWrapper (Option δ))
    (filled : client.serialize resourceWrapper ≠ []) :
    Passage (clientRequest client resourceWrapper) where
  accepted := (clientRequest client resourceWrapper).length
  accepted_le := le_rfl
  segments := [clientHeader, client.serialize resourceWrapper]
  filled := by
    simp only [List.mem_cons, List.not_mem_nil, or_false, forall_eq_or_imp, forall_eq]
    exact ⟨by decide, filled⟩
  inOrder := by
    rw [List.take_length, clientRequest]
    simp

/-- A read request whose header and wrapper come one after the other. -/
theorem cut_request_lost :
    ¬ ∀ (client : ClientSerializer ℕ) (limit : ℕ) (resourceWrapper : ResourceWrapper (Option ℕ))
        (p : Passage (clientRequest client resourceWrapper)) (written : Bool) (clock : Clock),
      (clientRequest client resourceWrapper).length ≤ limit →
      handed (serverSide limit p written clock) =
        some (clientRequest client resourceWrapper) := by
  intro crosses
  let write : Option ℕ → Bytes := Serialization.orNull fun n => Serialization.serializeInt n
  let client : ClientSerializer ℕ := ⟨Serialization.serializeWrapper ⟨write, write⟩, fun _ => none⟩
  let resourceWrapper : ResourceWrapper (Option ℕ) :=
    ⟨some (ResourceImpl.construct (some ⟨ascii "anyem.com", ascii "anyemNameSpace", ascii "a"⟩)
      none (ascii "55b3a1c2d4e5f6.12345678")), IResourceHolder.read⟩
  let p := cutAfterHeader client resourceWrapper (List.cons_ne_nil _ _)
  have same := crosses client _ resourceWrapper p true ⟨[], []⟩ le_rfl
  have whole := (Passage.read_eq_iff le_rfl p).mp (Option.some.inj same)
  exact absurd whole.2 (by decide)

end Passages

end WholeMessages
