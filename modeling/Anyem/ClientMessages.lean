import Anyem.Exchanges
import Anyem.Identifiers
import Anyem.MixedServer

/-!
# The messages of the clients at the server that checks no types

Clients build wrappers with an action, a resource and an identifier of the types
that the source declares. On their messages, whole or cut, the server on values
of any type does what `serve` does, and all their requests are plain.
-/

namespace ClientMessages

open ReplyMachine ThrowingMethods Resource ResourceHolder ResourceManager SerializedValues
  WireMessages
open MixedRequests (Mixed WrapperObject IdentifierObject ResourceObject ResponseObject keyOf
  requestOf)

variable {φ : Type}

section Objects

/-- A value, with scalars apart from the rest. -/
def mixedOf : Value φ → Mixed (Value φ)
  | .null => .null
  | .bool b => .bool b
  | .int n => .int n
  | .string s => .string s
  | value => .other value

def valueOf : Mixed (Value φ) → Value φ
  | .null => .null
  | .bool b => .bool b
  | .int n => .int n
  | .string s => .string s
  | .other value => value

theorem valueOf_mixedOf (value : Value φ) : valueOf (mixedOf value) = value := by
  cases value <;> rfl

/-- A property that the class declares, with its default. -/
def declared (properties : Entries φ) (className name : String) (missing : Mixed (Value φ)) :
    Mixed (Value φ) :=
  match properties.find? (privateName (ascii className) (ascii name)) with
  | none => missing
  | some value => mixedOf value

def wrapperObject (value : Value φ) : Option (WrapperObject (Value φ)) := do
  let properties ← propertiesOf (ascii "ResourceWrapper") value
  return {
    resource := declared properties "ResourceWrapper" "_resource" .null
    action := declared properties "ResourceWrapper" "_action" .null }

def resourceObject (value : Value φ) : Option (ResourceObject (Value φ)) := do
  let properties ← propertiesOf (ascii "ResourceImpl") value
  let property (name : String) : Mixed (Value φ) := declared properties "ResourceImpl" name .null
  return {
    resourceIdentifier := property "_resourceIdentifier"
    data := property "_data_m"
    reserved := declared properties "ResourceImpl" "_reserved_b" (.bool false)
    reservationDate := property "_reservation_date"
    reservationTime := property "_reservation_time"
    unreservationDate := property "_unreservation_date"
    unreservationTime := property "_unreservation_time"
    transactionId := property "_transaction_id_l" }

/-- The getters are those of `ResourceIdentifierImpl`, of which `ResourceImpl` is
a subclass. -/
def identifierObject (value : Value φ) : Option (IdentifierObject (Value φ)) := do
  let properties ← (propertiesOf (ascii "ResourceIdentifierImpl") value).or
    (propertiesOf (ascii "ResourceImpl") value)
  let property (name : String) : Mixed (Value φ) :=
    declared properties "ResourceIdentifierImpl" name .null
  return ⟨property "_url_s", property "_name_space_s", property "_name_s"⟩

def resourceObjectValue (r : ResourceObject (Value φ)) : Value φ :=
  let className := ascii "ResourceImpl"
  let parent := ascii "ResourceIdentifierImpl"
  .object className (entriesOf
    [(privateName className (ascii "_resourceIdentifier"), valueOf r.resourceIdentifier),
     (privateName className (ascii "_data_m"), valueOf r.data),
     (privateName className (ascii "_reserved_b"), valueOf r.reserved),
     (privateName className (ascii "_reservation_date"), valueOf r.reservationDate),
     (privateName className (ascii "_reservation_time"), valueOf r.reservationTime),
     (privateName className (ascii "_unreservation_date"), valueOf r.unreservationDate),
     (privateName className (ascii "_unreservation_time"), valueOf r.unreservationTime),
     (privateName className (ascii "_transaction_id_l"), valueOf r.transactionId),
     (privateName parent (ascii "_url_s"), .null),
     (privateName parent (ascii "_name_space_s"), .null),
     (privateName parent (ascii "_name_s"), .null)])

def responseObjectValue (w : ResponseObject (Value φ)) : Value φ :=
  let className := ascii "ResponseWrapperImpl"
  .object className (entriesOf
    [(privateName className (ascii "_resource"), nullOr resourceObjectValue w.resource),
     (privateName className (ascii "_error_message"), nullOr .string w.errorMessage),
     (privateName className (ascii "_response_code"), nullOr .int w.responseCode)])

/-- `unserialize` accepts the texts of trees alone; how values compare, and what
texts they have, is left to `base`. -/
def serverPhp (float : FloatText φ) (base : MixedRequests.Serializer (Value φ)) :
    MixedRequests.Serializer (Value φ) :=
  { base with
    wrapper := wrapperObject
    resource := resourceObject
    identifier := identifierObject
    unserialize := fun s => .value (match unserialize float s with
      | some value => mixedOf value
      | none => .bool false)
    serialize := fun w => serialize float (responseObjectValue w) }

end Objects

section Images

/-- The resource that a client or the server built, as an object of any type. -/
def mixedResource (r : ResourceImpl (Option (Datum φ))) : ResourceObject (Value φ) where
  resourceIdentifier := mixedOf (nullOr identifierValue r.resourceIdentifier)
  data := mixedOf (dataValue r.data)
  reserved := .bool r.reserved
  reservationDate := mixedOf (nullOr .string r.reservationDate)
  reservationTime := mixedOf (nullOr .string r.reservationTime)
  unreservationDate := mixedOf (nullOr .string r.unreservationDate)
  unreservationTime := mixedOf (nullOr .string r.unreservationTime)
  transactionId := mixedOf (nullOr .string r.transactionId)

def mixedRequest (q : Request (Option (Datum φ))) : MixedRequests.Request (Value φ) :=
  ⟨.string q.action, mixedResource q.resource, q.key⟩

def mixedResponse (w : ResponseWrapperImpl (Option (Datum φ))) : ResponseObject (Value φ) :=
  ⟨w.resource.map mixedResource, w.errorMessage, w.responseCode⟩

def mixedPool (pool : Pool (Option (Datum φ))) : MixedRequests.Pool (Value φ) :=
  fun key => (pool key).map mixedResource

def mixedOutcome : ResourceHolderImpl.Outcome (Option (Datum φ)) → MixedRequests.Outcome (Value φ)
  | .error message => .error (.exception message)
  | .ok (result, left) => .ok (result.map mixedResource, left.map mixedResource)

theorem declared_at {ps : List (Key × Value φ)} (distinct : (ps.map Prod.fst).Nodup) (i : ℕ)
    {className name : String} {value : Value φ}
    (here : ps[i]? = some (privateName (ascii className) (ascii name), value))
    (missing : Mixed (Value φ)) :
    declared (entriesOf ps) className name missing = mixedOf value := by
  rw [declared, find?_entriesOf distinct (List.mem_of_getElem? here)]

theorem resourceObject_resourceValue (r : ResourceImpl (Option (Datum φ))) :
    resourceObject (resourceValue r) = some (mixedResource r) := by
  have opened : propertiesOf (ascii "ResourceImpl") (resourceValue r) =
      some (entriesOf (resourceProperties r)) := by
    rw [resourceValue, propertiesOf, if_pos rfl]
  have named := @declared_at φ _ (resource_names r)
  simp only [resourceObject, opened, Option.bind_eq_bind, Option.bind_some, named 0 rfl,
    named 1 rfl, named 2 rfl, named 3 rfl, named 4 rfl, named 5 rfl, named 6 rfl, named 7 rfl]
  rfl

theorem wrapperObject_wrapperValue (w : ResourceWrapper (Option (Datum φ))) :
    wrapperObject (wrapperValue w) =
      some ⟨mixedOf (nullOr resourceValue w.resource), .string w.action⟩ := by
  have opened : propertiesOf (ascii "ResourceWrapper") (wrapperValue w) =
      some (entriesOf (wrapperProperties w)) := by
    rw [wrapperValue, propertiesOf, if_pos rfl]
  have named := @declared_at φ _ (wrapper_names w)
  simp only [wrapperObject, opened, Option.bind_eq_bind, Option.bind_some, named 0 rfl,
    named 1 rfl]
  rfl

variable (float : FloatText φ) (base : MixedRequests.Serializer (Value φ))

theorem keyOf_identifier (i : ResourceIdentifierImpl) :
    keyOf (serverPhp float base).toPhp (mixedOf (identifierValue i)) = some (mergedKey i) := rfl

/-- The request in the wrapper that a client sends. -/
theorem requestOf_wrapper (q : Request (Option (Datum φ))) :
    requestOf (serverPhp float base).toPhp
      (mixedOf (wrapperValue ⟨some q.resource, q.action⟩)) = some (mixedRequest q) := by
  have wrapped : (mixedOf (wrapperValue ⟨some q.resource, q.action⟩)).view wrapperObject =
      some ⟨mixedOf (resourceValue q.resource), .string q.action⟩ :=
    wrapperObject_wrapperValue ⟨some q.resource, q.action⟩
  have carried : (mixedOf (resourceValue q.resource)).view resourceObject =
      some (mixedResource q.resource) := resourceObject_resourceValue q.resource
  have keyed : keyOf (serverPhp float base).toPhp (mixedResource q.resource).resourceIdentifier =
      some q.key := by
    rw [mixedResource, q.identified]
    exact keyOf_identifier float base q.identifier
  rw [requestOf]
  simp only [serverPhp] at keyed ⊢
  simp only [wrapped, carried, keyed, Option.bind_eq_bind, Option.bind_some]
  rfl

/-- A wrapper without a resource or without an identifier holds no request. -/
theorem requestOf_other {w : ResourceWrapper (Option (Datum φ))}
    (other : ∀ r i, w.resource = some r → r.resourceIdentifier ≠ some i) :
    requestOf (serverPhp float base).toPhp (mixedOf (wrapperValue w)) = none := by
  have wrapped : (mixedOf (wrapperValue w)).view wrapperObject =
      some ⟨mixedOf (nullOr resourceValue w.resource), .string w.action⟩ :=
    wrapperObject_wrapperValue w
  rw [requestOf]
  cases resource : w.resource with
  | none =>
    rw [resource] at wrapped
    simp only [serverPhp, wrapped, Option.bind_eq_bind, Option.bind_some]
    rfl
  | some r =>
    have anonymous : r.resourceIdentifier = none := by
      cases identified : r.resourceIdentifier with
      | none => rfl
      | some i => exact False.elim (other r i resource identified)
    have carried : (mixedOf (resourceValue r)).view resourceObject = some (mixedResource r) :=
      resourceObject_resourceValue r
    rw [resource] at wrapped
    simp only [serverPhp, wrapped, Option.bind_eq_bind, Option.bind_some, nullOr, carried]
    rw [mixedResource, anonymous]
    rfl

theorem text_shown (t : Option Bytes) :
    (mixedOf (nullOr Value.string t)).text (serverPhp float base).toPhp =
      some (ResourceImpl.shown t) := by
  cases t <;> rfl

theorem identical_iff (t u : Option Bytes) :
    (mixedOf (nullOr Value.string t)).identical (serverPhp float base).toPhp
      (mixedOf (nullOr Value.string u)) = decide (t = u) := by
  cases t with
  | none => cases u <;> rfl
  | some a =>
    cases u with
    | none => rfl
    | some b => simp [nullOr, mixedOf, Mixed.identical]

theorem equals_word (action word : Bytes) :
    (Mixed.string action : Mixed (Value φ)).equals (serverPhp float base).toPhp word =
      decide (action = word) := rfl

theorem refusal_follows (message : Option Bytes → Bytes)
    (shows : ∀ t, message (some (ResourceImpl.shown t)) = message t) (t : Option Bytes) :
    MixedRequests.refusal (serverPhp float base).toPhp message (mixedOf (nullOr .string t)) =
      .exception (message t) := by
  rw [MixedRequests.refusal, text_shown]
  exact congrArg Throwable.exception (shows t)

theorem foreignRefusal_follows (holder given : Option Bytes) :
    MixedRequests.foreignRefusal (serverPhp float base).toPhp (mixedOf (nullOr .string holder))
      (mixedOf (nullOr .string given)) =
      .exception (ResourceImpl.anotherTransaction holder given) := by
  rw [MixedRequests.foreignRefusal, text_shown, text_shown]
  rfl

section Outcomes

variable (given : ResourceImpl (Option (Datum φ))) (now : Clock)
  (entry : Option (ResourceImpl (Option (Datum φ))))

theorem getOutcome_follows :
    MixedRequests.getOutcome (serverPhp float base).toPhp (mixedResource given) now
      (entry.map mixedResource) = mixedOutcome (ResourceHolderImpl.getOutcome given now entry) := by
  have chosen : ∀ r : ResourceImpl (Option (Datum φ)),
      (if (mixedResource r).reserved.isTrue = true then
        .error (MixedRequests.refusal (serverPhp float base).toPhp ResourceImpl.alreadyReserved
          (mixedResource r).transactionId)
      else .ok (some ((mixedResource r).reservedBy (mixedResource given).transactionId now),
        some ((mixedResource r).reservedBy (mixedResource given).transactionId now)) :
        MixedRequests.Outcome (Value φ)) =
      mixedOutcome (if r.reserved = true then .error (ResourceImpl.alreadyReserved r.transactionId)
        else .ok (some (r.reservedBy given.transactionId now),
          some (r.reservedBy given.transactionId now))) := by
    intro r
    by_cases held : r.reserved = true
    · have held' : (mixedResource r).reserved.isTrue = true := held
      rw [if_pos held, if_pos held', mixedOutcome]
      exact congrArg Except.error (refusal_follows float base _ (fun _ => rfl) r.transactionId)
    · have free : ¬ (mixedResource r).reserved.isTrue = true := held
      rw [if_neg held, if_neg free]
      rfl
  cases entry with
  | none => exact chosen given
  | some found => exact chosen found

theorem unreserveOutcome_follows (action : Bytes)
    {write : ResourceImpl (Option (Datum φ)) → ResourceImpl (Option (Datum φ))}
    {write' : ResourceObject (Value φ) → ResourceObject (Value φ)}
    (writes : ∀ r, write' (mixedResource r) = mixedResource (write r)) :
    MixedRequests.unreserveOutcome (serverPhp float base).toPhp action write'
      (mixedResource given) now (entry.map mixedResource) =
      mixedOutcome (ResourceHolderImpl.unreserveOutcome action write given now entry) := by
  cases entry with
  | none => rfl
  | some found =>
    rw [Option.map_some, MixedRequests.unreserveOutcome, ResourceHolderImpl.unreserveOutcome]
    by_cases free : found.reserved = false
    · have free' : (mixedResource found).reserved.isFalse = true := by
        rw [mixedResource, free]
        rfl
      rw [if_pos free, if_pos free']
      rfl
    have held : found.reserved = true := by simpa using free
    have held' : ¬ (mixedResource found).reserved.isFalse = true := by
      rw [mixedResource, held]
      exact Bool.false_ne_true
    have foreign_iff : MixedRequests.Foreign (serverPhp float base).toPhp (mixedResource found)
        (mixedResource given).transactionId ↔ found.transactionId ≠ given.transactionId := by
      rw [MixedRequests.Foreign, mixedResource, mixedResource, identical_iff, held]
      simp [Mixed.isTrue]
    rw [if_neg free, if_neg held']
    by_cases foreign : found.transactionId ≠ given.transactionId
    · rw [if_pos foreign, if_pos (foreign_iff.mpr foreign), mixedOutcome]
      exact congrArg Except.error (foreignRefusal_follows float base _ _)
    · rw [if_neg foreign, if_neg (foreign ∘ foreign_iff.mp), mixedOutcome]
      exact congrArg (fun r => Except.ok (none, some r)) (writes (found.unreserved now))

end Outcomes

/-- The handlers do with a request of a client what the typed handlers do. -/
theorem outcome_follows (q : Request (Option (Datum φ)))
    (entry : Option (ResourceImpl (Option (Datum φ)))) :
    (mixedRequest q).outcome (serverPhp float base).toPhp q.clock (entry.map mixedResource) =
      mixedOutcome (q.outcome entry) := by
  rw [MixedRequests.Request.outcome, Request.outcome, ResourceHolderImpl.outcome]
  simp only [mixedRequest, equals_word, decide_eq_true_eq]
  split
  · exact getOutcome_follows float base q.resource q.clock entry
  split
  · exact unreserveOutcome_follows float base q.resource q.clock entry _ fun r => rfl
  split
  · exact unreserveOutcome_follows float base q.resource q.clock entry _ fun r => rfl
  split
  · cases entry <;> rfl
  split
  · cases entry <;> rfl
  · rfl

theorem resourceObjectValue_mixedResource (r : ResourceImpl (Option (Datum φ))) :
    resourceObjectValue (mixedResource r) = resourceValue r := by
  simp only [resourceObjectValue, mixedResource, valueOf_mixedOf]
  rfl

/-- The answer is written as the typed one. -/
theorem serialize_mixedResponse (w : ResponseWrapperImpl (Option (Datum φ))) :
    (serverPhp float base).serialize (mixedResponse w) = (php float).serialize w := by
  have resource : nullOr resourceObjectValue (w.resource.map mixedResource) =
      nullOr resourceValue w.resource := by
    cases w.resource with
    | none => rfl
    | some r => exact resourceObjectValue_mixedResource r
  rw [php_serialize]
  change serialize float (responseObjectValue (mixedResponse w)) = _
  rw [responseObjectValue, mixedResponse, resource]
  rfl

end Images

section Turns

variable (float : FloatText φ) (base : MixedRequests.Serializer (Value φ))
  {pool : Pool (Option (Datum φ))}

theorem unserialize_some {s : Bytes} {value : Value φ} (ran : unserialize float s = some value) :
    (serverPhp float base).unserialize s = .value (mixedOf value) := by
  rw [serverPhp]
  simp only [ran]

theorem unserialize_none {s : Bytes} (failed : unserialize float s = none) :
    (serverPhp float base).unserialize s = .value (.bool false) := by
  rw [serverPhp]
  simp only [failed]

/-- The resources that the typed server keeps can be logged. -/
theorem sound_mixedPool (reachable : PoolCells.Reachable pool) :
    MixedRequests.Sound (serverPhp float base).toPhp (mixedPool pool) := by
  intro key r here
  obtain ⟨r₀, present, rfl⟩ := Option.map_eq_some_iff.mp here
  obtain ⟨qs, rfl⟩ := reachable
  obtain ⟨i, identified, -⟩ := (PoolInvariant.represented_run qs key r₀ present).keyed
  refine ⟨mergedKey i, ?_⟩
  rw [mixedResource, identified]
  exact keyOf_identifier float base i

theorem mixedPool_update (key : Bytes) (entry : Option (ResourceImpl (Option (Datum φ)))) :
    mixedPool (Function.update pool key entry) =
      Function.update (mixedPool pool) key (entry.map mixedResource) := by
  funext k
  rw [mixedPool, Function.update_apply, Function.update_apply]
  split <;> rfl

/-- On the request of a client `manage` is one step of `serve`. -/
theorem manage_follows (reachable : PoolCells.Reachable pool) (q : Request (Option (Datum φ)))
    {body : Bytes}
    (unserialized : unserialize float body = some (wrapperValue ⟨some q.resource, q.action⟩)) :
    MixedRequests.manage (serverPhp float base) body q.clock (mixedPool pool) =
      .ok ((php float).serialize (serve pool q).1) (mixedPool (serve pool q).2) := by
  have read := unserialize_some float base unserialized
  rw [MixedRequests.manage_request (sound_mixedPool float base reachable) read
    (requestOf_wrapper float base q)]
  have followed := outcome_follows float base q (pool q.key)
  change (mixedRequest q).outcome (serverPhp float base).toPhp q.clock
    (mixedPool pool (mixedRequest q).key) = _ at followed
  rw [followed, serve_eq]
  cases o : q.outcome (pool q.key) with
  | error message =>
    have written := serialize_mixedResponse float base (respond (.error message))
    simp only [mixedOutcome, nextEntry, Function.update_eq_self]
    rw [← written]
    rfl
  | ok p =>
    have written := serialize_mixedResponse float base (respond (.ok p))
    simp only [mixedOutcome, nextEntry, mixedPool_update]
    rw [← written]
    rfl

end Turns

section Runs

open Exchanges Server Framing

variable (float : FloatText φ) (base : MixedRequests.Serializer (Value φ)) {limit : ℕ}
  {pool : Pool (Option (Datum φ))} {x : Exchange φ}

variable (x) in
theorem message_split : Separators.cut headerEnd (x.message float) =
    some (headerLines, (clientPhp float).serialize x.wrapper) := by
  rw [Exchange.message, WholeMessages.clientRequest, cut_framed]

/-- What came whole is a plain request. -/
theorem request_plain {q : Request (Option (Datum φ))} (request : x.request float limit = some q) :
    MixedRequests.Plain (serverPhp float base) (x.message float) := by
  obtain ⟨-, wrapped, -⟩ := request_some request
  have carried : (⟨some q.resource, q.action⟩ : ResourceWrapper (Option (Datum φ))) = x.wrapper :=
    Option.some.inj wrapped
  have back := request_text_back float x.wrapper []
  have parsed := requestOf_wrapper float base q
  rw [List.append_nil] at back
  rw [carried] at parsed
  have shows : MixedRequests.Shows (serverPhp float base).toPhp
      (mixedRequest q).resource.transactionId :=
    ⟨_, text_shown float base q.resource.transactionId⟩
  have printed : MixedRequests.Shows (serverPhp float base).toPhp (mixedRequest q).action :=
    ⟨q.action, rfl⟩
  have read := unserialize_some float base back
  exact ⟨_, _, _, _, message_split float x, read, parsed, shows, Or.inr printed⟩

theorem turn_follows (reachable : PoolCells.Reachable pool) {q : Request (Option (Datum φ))}
    (request : x.request float limit = some q) :
    turn (MixedRequests.manage (serverPhp float base)) (x.connection float limit) (mixedPool pool) =
      .ok (if x.written = true then some ((php float).serialize (serve pool q).1) else none)
        (mixedPool (serve pool q).2) := by
  obtain ⟨whole, wrapped, clock⟩ := request_some request
  have read : (x.connection float limit).clientRequest = some (x.message float) :=
    congrArg some whole
  have back := request_text_back float x.wrapper []
  rw [List.append_nil] at back
  have carried : x.wrapper = ⟨some q.resource, q.action⟩ := (Option.some.inj wrapped).symm
  have managed := manage_follows float base reachable q (back.trans (by rw [carried]))
  have same : (x.connection float limit).clock = q.clock := clock.symm
  rw [turn_managed rfl read (message_split float x), same, managed]
  rfl

theorem turn_fails (reachable : PoolCells.Reachable pool) (missing : x.request float limit = none) :
    ∃ ex, turn (MixedRequests.manage (serverPhp float base)) (x.connection float limit)
      (mixedPool pool) = .error ex (mixedPool pool) := by
  refine MixedRequests.turn_unanswerable (sound_mixedPool float base reachable) rfl rfl ?_ ?_
  · intro header body _ beyond
    cases beyond
  rintro ⟨header, body, v, q, split, unserialized, request, -⟩
  by_cases whole : (x.toServer (x.message float)).read limit = x.message float
  · rw [whole, message_split] at split
    cases split
    have back := request_text_back float x.wrapper []
    rw [List.append_nil] at back
    rw [unserialize_some float base back] at unserialized
    cases unserialized
    have other : ∀ r i, x.wrapper.resource = some r → r.resourceIdentifier ≠ some i := by
      intro r i resource identified
      obtain ⟨q', request'⟩ := request_of whole resource identified
      cases missing.symm.trans request'
    rw [requestOf_other float base other] at request
    cases request
  · have nothing := body_cut ((x.toServer (x.message float)).read_front limit) whole split
    rw [unserialize_none float base nothing] at unserialized
    cases unserialized
    cases request

/-- Whether the loop goes on after a run, and the pool that it leaves. -/
def left {α : Type} : EStateM.Result Throwable (MixedRequests.Pool (Value φ)) α →
    Bool × MixedRequests.Pool (Value φ)
  | .ok _ pool => (true, pool)
  | .error _ pool => (false, pool)

theorem left_bind {α β : Type} (m : Method Throwable (MixedRequests.Pool (Value φ)) α) (f : α → β)
    (pool : MixedRequests.Pool (Value φ)) :
    left ((do let a ← m; return f a) pool) = left (m pool) := by
  rw [bind_run]
  cases m pool <;> rfl

theorem reachable_serve (reachable : PoolCells.Reachable pool) (q : Request (Option (Datum φ))) :
    PoolCells.Reachable (serve pool q).2 := by
  obtain ⟨qs, rfl⟩ := reachable
  exact ⟨qs ++ [q], (final_snoc serve PoolCells.emptyPool qs q).symm⟩

theorem left_from (reachable : PoolCells.Reachable pool) (xs : List (Exchange φ)) :
    left (server (MixedRequests.manage (serverPhp float base))
      (xs.map fun x => x.connection float limit) (mixedPool pool)) =
      ((final (step float limit) ⟨pool, true⟩ xs).up,
        mixedPool (final (step float limit) ⟨pool, true⟩ xs).pool) := by
  induction xs generalizing pool with
  | nil => rfl
  | cons x xs ih =>
    rw [List.map_cons, server]
    cases request : x.request float limit with
    | none =>
      obtain ⟨ex, threw⟩ := turn_fails float base reachable request
      have ended : final (step float limit) ⟨pool, true⟩ (x :: xs) = ⟨pool, false⟩ := by
        change final (step float limit) (step float limit ⟨pool, true⟩ x).2 xs = _
        rw [step_ends request pool]
        exact (down_run pool xs).1
      rw [bind_error threw, ended]
      rfl
    | some q =>
      have ran := turn_follows float base reachable request
      have more : final (step float limit) ⟨pool, true⟩ (x :: xs) =
          final (step float limit) ⟨(serve pool q).2, true⟩ xs := by
        change final (step float limit) (step float limit ⟨pool, true⟩ x).2 xs = _
        rw [step_request request pool]
      rw [bind_ok ran, more, left_bind]
      exact ih (reachable_serve reachable q)

/-- The server of the exchanges is this server: after any run it is up or down
like it, with the same pool. -/
theorem server_leaves_process (xs : List (Exchange φ)) :
    left (server (MixedRequests.manage (serverPhp float base))
      (xs.map fun x => x.connection float limit) MixedRequests.emptyPool) =
      ((final (step float limit) start xs).up,
        mixedPool (final (step float limit) start xs).pool) :=
  left_from float base ⟨[], rfl⟩ xs

end Runs

end ClientMessages
