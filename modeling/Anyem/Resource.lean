import Anyem.Separators
import Anyem.ThrowingMethods

/-!
# Resources, their identifiers and the two wrappers

The classes that client and server share. A PHP string is a list of bytes and
`NULL` is `none`. `δ` is the type of a resource's data, which the source calls
mixed and never looks into. The clock is read by `date` alone, so a reading is
the two strings that `date` makes of it.
-/

namespace Resource

open Separators ThrowingMethods

abbrev Bytes := List UInt8

/-- The bytes of a literal of the source. -/
def ascii (s : String) : Bytes := s.toList.map fun c => UInt8.ofNat c.toNat

/-- What PHP code throws. `catch (Exception)` stops an exception. Calling a
method on a value that has no such method is an error, which it lets through. -/
inductive Throwable where
  | exception (message : Bytes)
  | memberCall (method : Bytes)
  deriving DecidableEq

/-- `strpos`, with `FALSE` for `none`. -/
def strpos (haystack needle : Bytes) : Option Nat :=
  (cut needle haystack).map fun p => p.1.length

theorem strpos_isSome_iff {needle : Bytes} (nonempty : needle ≠ []) (haystack : Bytes) :
    (strpos haystack needle).isSome = true ↔ needle <:+: haystack := by
  rw [strpos, Option.isSome_map, cut_isSome_iff nonempty]

namespace IResourceHolder

def get : Bytes := ascii "GET"
def release : Bytes := ascii "RELEASE"
def put : Bytes := ascii "PUT"
def delete : Bytes := ascii "DELETE"
def read : Bytes := ascii "READ"
def resourceIdentifierSeperator : Bytes := ascii "::"

end IResourceHolder

structure ResourceIdentifierImpl where
  url : Bytes
  nameSpace : Bytes
  name : Bytes
  deriving DecidableEq

namespace ResourceIdentifierImpl

def construct (url nameSpace name : Bytes) : Except Throwable ResourceIdentifierImpl :=
  if (strpos url IResourceHolder.resourceIdentifierSeperator).isSome ||
      (strpos nameSpace IResourceHolder.resourceIdentifierSeperator).isSome ||
      (strpos name IResourceHolder.resourceIdentifierSeperator).isSome then
    .error (.exception (ascii "this special string [" ++
      IResourceHolder.resourceIdentifierSeperator ++
      ascii "] can not be used, neither by URL, NAMESPACE or VARIABLE_NAME"))
  else .ok ⟨url, nameSpace, name⟩

/-- The constructor builds the identifier instead of throwing. -/
def Accepted (i : ResourceIdentifierImpl) : Prop :=
  construct i.url i.nameSpace i.name = .ok i

/-- The letter that the separator doubles. -/
def colon : UInt8 := 58

theorem separator_eq : IResourceHolder.resourceIdentifierSeperator = [colon, colon] := by
  decide

theorem accepted_iff (i : ResourceIdentifierImpl) :
    i.Accepted ↔ Avoids colon i.url ∧ Avoids colon i.nameSpace ∧ Avoids colon i.name := by
  have found : ∀ w : Bytes,
      (strpos w IResourceHolder.resourceIdentifierSeperator).isSome = true ↔
        ¬ Avoids colon w := by
    intro w
    rw [strpos_isSome_iff (by decide), separator_eq, Avoids, not_not]
  rw [Accepted, construct]
  split
  · rename_i h
    simp only [Bool.or_eq_true, found] at h
    refine iff_of_false (fun heq => by cases heq) ?_
    rintro ⟨hu, hs, hn⟩
    exact h.elim (fun h => h.elim (fun h => h hu) (fun h => h hs)) (fun h => h hn)
  · rename_i h
    simp only [Bool.or_eq_true, found, not_or, not_not] at h
    exact iff_of_true rfl ⟨h.1.1, h.1.2, h.2⟩

instance (i : ResourceIdentifierImpl) : Decidable i.Accepted :=
  decidable_of_iff (Avoids colon i.url ∧ Avoids colon i.nameSpace ∧ Avoids colon i.name)
    (accepted_iff i).symm

end ResourceIdentifierImpl

/-- What `date` returns for the date and the time format at one moment. -/
structure Clock where
  date : Bytes
  time : Bytes
  deriving DecidableEq

structure ResourceImpl (δ : Type) where
  resourceIdentifier : Option ResourceIdentifierImpl
  data : δ
  reserved : Bool
  reservationDate : Option Bytes
  reservationTime : Option Bytes
  unreservationDate : Option Bytes
  unreservationTime : Option Bytes
  transactionId : Option Bytes
  deriving DecidableEq

namespace ResourceImpl

variable {δ : Type}

/-- The constructor, with the string that `uniqid` returned. -/
def construct (resourceIdentifier : Option ResourceIdentifierImpl) (data : δ)
    (uniqid : Bytes) : ResourceImpl δ where
  resourceIdentifier := resourceIdentifier
  data := data
  reserved := false
  reservationDate := none
  reservationTime := none
  unreservationDate := none
  unreservationTime := none
  transactionId := some uniqid

/-- A transaction id inside a message; `NULL` is written as the empty string. -/
def shown (transactionId : Option Bytes) : Bytes := transactionId.getD []

def alreadyReserved (holder : Option Bytes) : Bytes :=
  ascii "resource already reserved, by [TransactionId]: <" ++ shown holder ++ ascii ">"

def alreadyUnreserved : Bytes := ascii "resource is already unreserved"

def anotherTransaction (holder given : Option Bytes) : Bytes :=
  ascii "resource reserved in another transaction, unreservation is not permitted\n" ++
  ascii "Reserved by this <TransactionID>              : " ++ shown holder ++ ascii "\n" ++
  ascii "Tried to unreserve it by this <TransactionID> : " ++ shown given ++ ascii "\n"

def reserve (transactionId : Option Bytes) (now : Clock) :
    Method Throwable (ResourceImpl δ) Unit := do
  let this ← get
  if this.reserved = true then
    throw (.exception (alreadyReserved this.transactionId))
  modify fun r => { r with transactionId := transactionId }
  modify fun r => { r with reserved := true }
  modify fun r => { r with reservationDate := some now.date }
  modify fun r => { r with reservationTime := some now.time }

def unreserve (transactionId : Option Bytes) (now : Clock) :
    Method Throwable (ResourceImpl δ) Unit := do
  let this ← get
  if this.reserved = false then
    throw (.exception alreadyUnreserved)
  if this.reserved = true ∧ this.transactionId ≠ transactionId then
    throw (.exception (anotherTransaction this.transactionId transactionId))
  modify fun r => { r with reserved := false }
  modify fun r => { r with transactionId := none }
  modify fun r => { r with reservationDate := none }
  modify fun r => { r with reservationTime := none }
  modify fun r => { r with unreservationDate := some now.date }
  modify fun r => { r with unreservationTime := some now.time }

def setData (data : δ) : Method Throwable (ResourceImpl δ) Unit :=
  modify fun r => { r with data := data }

/-- The fields as `reserve` leaves them. -/
def reservedBy (r : ResourceImpl δ) (transactionId : Option Bytes) (now : Clock) :
    ResourceImpl δ :=
  { r with
    transactionId := transactionId
    reserved := true
    reservationDate := some now.date
    reservationTime := some now.time }

/-- The fields as `unreserve` leaves them. -/
def unreserved (r : ResourceImpl δ) (now : Clock) : ResourceImpl δ :=
  { r with
    reserved := false
    transactionId := none
    reservationDate := none
    reservationTime := none
    unreservationDate := some now.date
    unreservationTime := some now.time }

theorem reserve_free {r : ResourceImpl δ} (free : r.reserved = false)
    (t : Option Bytes) (now : Clock) : reserve t now r = .ok () (r.reservedBy t now) := by
  cases r
  cases free
  rfl

theorem reserve_held {r : ResourceImpl δ} (held : r.reserved = true)
    (t : Option Bytes) (now : Clock) :
    reserve t now r = .error (.exception (alreadyReserved r.transactionId)) r := by
  cases r
  cases held
  rfl

theorem unreserve_free {r : ResourceImpl δ} (free : r.reserved = false)
    (t : Option Bytes) (now : Clock) :
    unreserve t now r = .error (.exception alreadyUnreserved) r := by
  cases r
  cases free
  rfl

theorem unreserve_foreign {r : ResourceImpl δ} (held : r.reserved = true)
    {t : Option Bytes} (foreign : r.transactionId ≠ t) (now : Clock) :
    unreserve t now r = .error (.exception (anotherTransaction r.transactionId t)) r := by
  cases r
  cases held
  simp only [unreserve, bind_run, get_run]
  rw [if_neg (by decide), if_pos ⟨trivial, foreign⟩]
  rfl

theorem unreserve_own {r : ResourceImpl δ} (held : r.reserved = true) (now : Clock) :
    unreserve r.transactionId now r = .ok () (r.unreserved now) := by
  simp only [unreserve, bind_run, get_run, held, ne_eq, not_true_eq_false]
  rfl

end ResourceImpl

structure ResourceWrapper (δ : Type) where
  resource : Option (ResourceImpl δ)
  action : Bytes
  deriving DecidableEq

namespace IResponseWrapper

def successResponseCode : Int := 0
def errorResponseCode : Int := 1

end IResponseWrapper

structure ResponseWrapperImpl (δ : Type) where
  resource : Option (ResourceImpl δ)
  errorMessage : Option Bytes
  responseCode : Option Int
  deriving DecidableEq

end Resource
