import Anyem.Client
import Anyem.Server

/-!
# The order of the public calls

A client is built without a resource. `get`, `read` and `delete` make one, and
from then on every call has one to send. `put` and `release` use the one that is
there and do not look whether there is one.
-/

namespace CallOrder

open ThrowingMethods Resource ResourceHolder ResourceManager Client

variable {δ : Type}

/-- The public methods with their data, which are not `NULL`. -/
inductive PublicCall (δ : Type) where
  | get (data : δ)
  | put (data : δ)
  | release
  | read
  | delete

def PublicCall.call : PublicCall δ → Call δ
  | .get data => .get (some data)
  | .put data => .put (some data)
  | .release => .release
  | .read => .read
  | .delete => .delete

/-- One run of a method, with the string that `uniqid` returns in it. -/
structure Attempt (δ : Type) where
  call : PublicCall δ
  uniqid : Bytes

/-- A call makes one attempt, and in the loop of `action` further ones. -/
structure Invoked (δ : Type) where
  first : Attempt δ
  retries : List Bytes

def attempts (calls : List (Invoked δ)) : List (Attempt δ) :=
  calls.flatMap fun c => c.first :: c.retries.map fun uniqid => ⟨c.first.call, uniqid⟩

def ClientImpl.construct (resourceIdentifier : ResourceIdentifierImpl) : ClientImpl δ :=
  ⟨resourceIdentifier, none⟩

/-- What the client does in an attempt, up to the write to the socket. -/
def Attempt.run (a : Attempt δ) : Method Throwable (ClientImpl δ) (ResourceWrapper (Option δ)) :=
  a.call.call.run a.uniqid

/-- The client after an attempt, whether it sent or threw. -/
def Attempt.left (a : Attempt δ) (this : ClientImpl δ) : ClientImpl δ :=
  match a.run this with
  | .ok _ this' => this'
  | .error _ this' => this'

/-- The client has a resource with its identifier and a transaction id. -/
def Carries (i : ResourceIdentifierImpl) (resource : Option (ResourceImpl (Option δ))) : Prop :=
  ∃ r, resource = some r ∧ r.resourceIdentifier = some i ∧ r.transactionId ≠ none

/-- `manage` returns a serialized response for whatever unserializes to the
wrapper. -/
def Answered (wrapper : ResourceWrapper (Option δ)) : Prop :=
  ∀ (php : Serializer (Option δ)) (body : Bytes) (now : Clock) (pool : Pool (Option δ)),
    php.unserialize body = some wrapper →
    ∃ reply pool', manage php body now pool = .ok reply pool'

/-- The attempt throws an `Exception`, or it sends a proper wrapper that the
server answers. -/
def Attempt.Safe (a : Attempt δ) (this : ClientImpl δ) : Prop :=
  match a.run this with
  | .error (.exception _) _ => True
  | .error (.memberCall _) _ => False
  | .ok wrapper _ => Carries this.resourceIdentifier wrapper.resource ∧ Answered wrapper

/-- All attempts of a run are safe, each on the client that the one before it left. -/
def AllSafe : ClientImpl δ → List (Attempt δ) → Prop
  | _, [] => True
  | this, a :: rest => a.Safe this ∧ AllSafe (a.left this) rest

section Steps

variable {a : Attempt δ} {this : ClientImpl δ}

theorem answered_of_carries {i : ResourceIdentifierImpl} {wrapper : ResourceWrapper (Option δ)}
    (carries : Carries i wrapper.resource) : Answered wrapper := by
  obtain ⟨resource, action⟩ := wrapper
  obtain ⟨r, rfl, identified, -⟩ := carries
  intro php body now pool unserialized
  let q : Request (Option δ) := ⟨action, r, i, identified, now⟩
  exact ⟨_, _, Server.manage_request php pool q unserialized⟩

/-- An attempt that sends what the client carries is safe. -/
theorem safe_of_sent {wrapper : ResourceWrapper (Option δ)} {this' : ClientImpl δ}
    (sent : a.run this = .ok wrapper this')
    (carries : Carries this.resourceIdentifier wrapper.resource) : a.Safe this := by
  rw [Attempt.Safe, sent]
  exact ⟨carries, answered_of_carries carries⟩

/-- A call that makes a new resource is safe on every client. -/
theorem renews_safe (renews : ¬ a.call.call.Closes) (this : ClientImpl δ) :
    a.Safe this ∧ Carries (a.left this).resourceIdentifier (a.left this).resource := by
  obtain ⟨data, sent⟩ := Call.run_renews renews a.uniqid this
  have carries : Carries this.resourceIdentifier
      (some (ResourceImpl.construct (some this.resourceIdentifier) data a.uniqid)) :=
    ⟨_, rfl, rfl, Option.some_ne_none _⟩
  refine ⟨safe_of_sent sent carries, ?_⟩
  rw [Attempt.left, Attempt.run, sent]
  exact carries

/-- On a client with a resource every call is safe, and it leaves a resource. -/
theorem carries_safe (carries : Carries this.resourceIdentifier this.resource) (a : Attempt δ) :
    a.Safe this ∧ Carries (a.left this).resourceIdentifier (a.left this).resource := by
  by_cases closes : a.call.call.Closes
  · obtain ⟨r, kept, identified, unlocked⟩ := carries
    obtain ⟨data, sent⟩ := Call.run_keeps closes a.uniqid kept
    have carries' : Carries this.resourceIdentifier (some { r with data := data }) :=
      ⟨_, rfl, identified, unlocked⟩
    refine ⟨safe_of_sent sent carries', ?_⟩
    rw [Attempt.left, Attempt.run, sent]
    exact carries'
  · exact renews_safe closes this

theorem allSafe_of_carries (carries : Carries this.resourceIdentifier this.resource)
    (rest : List (Attempt δ)) : AllSafe this rest := by
  induction rest generalizing this with
  | nil => trivial
  | cons a rest ih =>
    obtain ⟨safe, carries'⟩ := carries_safe carries a
    exact ⟨safe, ih carries'⟩

/-- On a new client the calls that close are not safe. -/
theorem closes_unsafe (closes : a.call.call.Closes) (i : ResourceIdentifierImpl) :
    ¬ a.Safe (ClientImpl.construct i) := by
  obtain ⟨call, uniqid⟩ := a
  cases call with
  | put data => exact id
  | release =>
    rintro ⟨⟨r, present, -⟩, -⟩
    cases present
  | get data | read | delete => exact False.elim closes

end Steps

/-- The calls of a client are safe in an order exactly when the first of them is
neither `put` nor `release`. -/
theorem calls_safe_iff_first_renews (i : ResourceIdentifierImpl) (calls : List (Invoked δ)) :
    AllSafe (ClientImpl.construct i) (attempts calls) ↔
      ∀ c ∈ calls.head?, ¬ c.first.call.call.Closes := by
  cases calls with
  | nil => exact iff_of_true trivial (by simp)
  | cons c calls =>
    simp only [List.head?_cons, Option.mem_some_iff, forall_eq']
    constructor
    · intro safe closes
      exact closes_unsafe closes i safe.1
    · intro renews
      obtain ⟨safe, carries⟩ := renews_safe renews (ClientImpl.construct i)
      exact ⟨safe, allSafe_of_carries carries _⟩

/-- A `release` on a new client sends `NULL` for the resource. -/
theorem release_first_unsafe :
    ¬ ∀ (i : ResourceIdentifierImpl) (calls : List (Invoked ℕ)), i.Accepted →
      AllSafe (ClientImpl.construct i) (attempts calls) := by
  intro allSafe
  obtain ⟨⟨⟨r, present, -⟩, -⟩, -⟩ :=
    allSafe ⟨ascii "anyem.com", ascii "anyemNameSpace", ascii "a"⟩ [⟨⟨.release, []⟩, []⟩]
      (by decide)
  cases present

end CallOrder
