import Anyem.MixedValues
import Anyem.ResourceHolder

/-!
# Requests of any type at the holder and the manager

The handlers again, on values of any type. A message that names a transaction id
converts it to a string, and so do the key, the log line of a resource and the
log line of an unknown action; a value without a text throws an error there. The
log lines are built and not kept. What `catch (Exception)` does not stop leaves
`manage`, and with it the server.
-/

namespace MixedRequests

open Resource ResourceHandles ResourceHolder ThrowingMethods

variable {ν σ : Type}

/-- The static `_RESOURCE_POOL`. -/
abbrev Pool (ν : Type) := Bytes → Option (ResourceObject ν)

/-- What `unserialize` does with a text: it returns a value, or it throws, or the
value is beyond this model. Beyond it are values in which a property of a
wrapper, a resource or an identifier is a reference, and values with an object
whose class has a method that PHP calls by itself during the turn, such as a
destructor or `__call`, and that does more than return. -/
inductive Unserialized (ν : Type) where
  | value (v : Mixed ν)
  | throws (ex : Throwable)
  | beyond

/-- PHP's own functions, as far as `manage` uses them, with what becomes of a
value beyond the model. -/
structure Serializer (ν : Type) extends Php ν where
  unserialize : Bytes → Unserialized ν
  serialize : ResponseObject ν → Bytes
  manageBeyond : Bytes → Clock → Method Throwable (Pool ν) Bytes

variable (php : Php ν)

/-- The error of an object that PHP cannot convert to a string. -/
def noText : Throwable := .memberCall (ascii "__toString")

/-- A value as a part of a string. -/
def shown (v : Mixed ν) : Method Throwable σ Bytes :=
  match v.text php with
  | some s => pure s
  | none => throw noText

/-- A getter of the identifier. -/
def identifierGet (method : Bytes) (property : IdentifierObject ν → Mixed ν)
    (resourceIdentifier : Mixed ν) : Method Throwable σ (Mixed ν) :=
  match resourceIdentifier.view php.identifier with
  | some i => pure (property i)
  | none => throw (.memberCall method)

def getUrl : Mixed ν → Method Throwable σ (Mixed ν) :=
  identifierGet php (ascii "getUrl") IdentifierObject.url

def getNamespace : Mixed ν → Method Throwable σ (Mixed ν) :=
  identifierGet php (ascii "getNamespace") IdentifierObject.nameSpace

def getName : Mixed ν → Method Throwable σ (Mixed ν) :=
  identifierGet php (ascii "getName") IdentifierObject.name

namespace ResourceObject

def toString (this : ResourceObject ν) : Method Throwable σ Bytes := do
  let url ← getUrl php this.resourceIdentifier
  let url ← shown php url
  let nameSpace ← getNamespace php this.resourceIdentifier
  let nameSpace ← shown php nameSpace
  let name ← getName php this.resourceIdentifier
  let name ← shown php name
  return ascii "\nURl: " ++ url ++ ascii ", Name Space: " ++ nameSpace ++
    ascii ", Variable Name: " ++ name ++ ascii ", Data: " ++ php.printR this.data ++ ascii "\n"

def reserve (transactionId : Mixed ν) (now : Clock) :
    Method Throwable (ResourceObject ν) Unit := do
  let this ← get
  if this.reserved.isTrue = true then
    let holder ← shown php this.transactionId
    throw (.exception (ResourceImpl.alreadyReserved (some holder)))
  modify fun r => { r with transactionId := transactionId }
  modify fun r => { r with reserved := .bool true }
  modify fun r => { r with reservationDate := .string now.date }
  modify fun r => { r with reservationTime := .string now.time }

def unreserve (transactionId : Mixed ν) (now : Clock) :
    Method Throwable (ResourceObject ν) Unit := do
  let this ← get
  if this.reserved.isFalse = true then
    throw (.exception ResourceImpl.alreadyUnreserved)
  if this.reserved.isTrue = true ∧ this.transactionId.identical php transactionId = false then
    let holder ← shown php this.transactionId
    let given ← shown php transactionId
    throw (.exception (ResourceImpl.anotherTransaction (some holder) (some given)))
  modify fun r => { r with reserved := .bool false }
  modify fun r => { r with transactionId := .null }
  modify fun r => { r with reservationDate := .null }
  modify fun r => { r with reservationTime := .null }
  modify fun r => { r with unreservationDate := .string now.date }
  modify fun r => { r with unreservationTime := .string now.time }

def setData (data : Mixed ν) : Method Throwable (ResourceObject ν) Unit :=
  modify fun r => { r with data := data }

/-- The properties as `reserve` leaves them. -/
def reservedBy (r : ResourceObject ν) (transactionId : Mixed ν) (now : Clock) :
    ResourceObject ν :=
  { r with
    transactionId := transactionId
    reserved := .bool true
    reservationDate := .string now.date
    reservationTime := .string now.time }

/-- The properties as `unreserve` leaves them. -/
def unreserved (r : ResourceObject ν) (now : Clock) : ResourceObject ν :=
  { r with
    reserved := .bool false
    transactionId := .null
    reservationDate := .null
    reservationTime := .null
    unreservationDate := .string now.date
    unreservationTime := .string now.time }

end ResourceObject

/-- The merged identifier, as the constructor builds it. -/
def mergedKey (resourceIdentifier : Mixed ν) : Method Throwable σ Bytes := do
  let url ← getUrl php resourceIdentifier
  let url ← shown php url
  let nameSpace ← getNamespace php resourceIdentifier
  let nameSpace ← shown php nameSpace
  let name ← getName php resourceIdentifier
  let name ← shown php name
  return url ++ IResourceHolder.resourceIdentifierSeperator ++
    nameSpace ++ IResourceHolder.resourceIdentifierSeperator ++ name

abbrev Holder (ν : Type) := ResourceHandles.Holder (Mixed ν) (ResourceObject ν)

namespace Holder

open ResourceHandles.Holder

/-- Build the log line of a resource. -/
def logged (resource : Option (ResourceObject ν)) : Method Throwable σ Unit :=
  match resource with
  | none => throw (.memberCall (ascii "toString"))
  | some r => do
    let _ ← ResourceObject.toString php r

def resourceLookup (h : Holder ν) : Method Throwable σ (Holder ν) :=
  match h.deref .found with
  | some resource => do
    logged php (some resource)
    return { h with resourceExist := true }
  | none => do
    logged php (some h.givenResource)
    return { h with resourceExist := false }

/-- The constructor, over the pool as it stands. -/
def construct (action givenResource : Mixed ν) : Method Throwable (Pool ν) (Holder ν) :=
  match givenResource.view php.resource with
  | none => throw (.memberCall (ascii "getResourceIdenitifier"))
  | some given => do
    let merged ← mergedKey php given.resourceIdentifier
    let pool ← get
    resourceLookup php
      { resourcePool := pool
        action := action
        givenResource := given
        resourceIdentiferMerged := merged
        resourceExist := false }

def execRead : Method Throwable (Holder ν) (Option (ResourceObject ν)) := do
  let this ← get
  if this.resourceExist = false then
    throw (.exception ResourceHolderImpl.requestedNotFound)
  return this.deref .found

def execPut (now : Clock) : Method Throwable (Holder ν) (Option (ResourceObject ν)) := do
  let this ← get
  if this.resourceExist = false then
    throw (.exception (ResourceHolderImpl.inexistant IResourceHolder.put))
  call .found (ascii "unreserve")
    (ResourceObject.unreserve php this.givenResource.transactionId now)
  call .found (ascii "setData") (ResourceObject.setData this.givenResource.data)
  let after ← get
  logged php (after.deref .found)
  return none

def execDelete : Method Throwable (Holder ν) (Option (ResourceObject ν)) := do
  let this ← get
  if this.resourceExist = false then
    throw (.exception (ResourceHolderImpl.inexistant IResourceHolder.delete))
  deleteEntryResourcePool
  -- the holder still has its handle on the object that left the pool
  logged php (this.deref .found)
  return none

def execGet (now : Clock) : Method Throwable (Holder ν) (Option (ResourceObject ν)) := do
  let this ← get
  let resource := if this.resourceExist = false then Handle.given else Handle.found
  call resource (ascii "reserve")
    (ResourceObject.reserve php this.givenResource.transactionId now)
  updateResourcePool resource
  let after ← get
  logged php (after.deref resource)
  return after.deref resource

def execRelease (now : Clock) : Method Throwable (Holder ν) (Option (ResourceObject ν)) := do
  let this ← get
  if this.resourceExist = false then
    throw (.exception (ResourceHolderImpl.inexistant IResourceHolder.release))
  call .found (ascii "unreserve")
    (ResourceObject.unreserve php this.givenResource.transactionId now)
  let after ← get
  logged php (after.deref .found)
  return none

/-- The `switch` compares loosely. The log line of an unknown action holds the
action. -/
def execute (now : Clock) : Method Throwable (Holder ν) (Option (ResourceObject ν)) := do
  let this ← get
  if this.action.equals php IResourceHolder.get = true then execGet php now
  else if this.action.equals php IResourceHolder.put = true then execPut php now
  else if this.action.equals php IResourceHolder.release = true then do
    let _ ← execRelease php now
    return none
  else if this.action.equals php IResourceHolder.read = true then execRead
  else if this.action.equals php IResourceHolder.delete = true then execDelete php
  else do
    let _ ← shown php this.action
    return none

end Holder

def getAction (resourceWrapper : Mixed ν) : Method Throwable σ (Mixed ν) :=
  match resourceWrapper.view php.wrapper with
  | none => throw (.memberCall (ascii "getAction"))
  | some w => pure w.action

def getResource (resourceWrapper : Mixed ν) : Method Throwable σ (Mixed ν) :=
  match resourceWrapper.view php.wrapper with
  | none => throw (.memberCall (ascii "getResource"))
  | some w => pure w.resource

/-- Execute a holder on the static pool. -/
def executeHolder (resourceHolder : Holder ν) (now : Clock) :
    Method Throwable (Pool ν) (Option (ResourceObject ν)) := fun _ =>
  match Holder.execute php now resourceHolder with
  | .ok mixedResponse h => .ok mixedResponse h.resourcePool
  | .error ex h => .error ex h.resourcePool

/-- The part of `manage` between `unserialize` and `serialize`. -/
def manageValue (resourceWrapper : Mixed ν) (now : Clock) :
    Method Throwable (Pool ν) (ResponseObject ν) :=
  tryCatch
    (do
      let action ← getAction php resourceWrapper
      let resource ← getResource php resourceWrapper
      let resourceHolder ← Holder.construct php action resource
      let mixedResponse ← executeHolder php resourceHolder now
      return ⟨mixedResponse, none, some IResponseWrapper.successResponseCode⟩)
    fun
      | .exception message =>
        return ⟨none, some message, some IResponseWrapper.errorResponseCode⟩
      | ex => throw ex

def manage (php : Serializer ν) (resourceWrapper : Bytes) (now : Clock) :
    Method Throwable (Pool ν) Bytes :=
  match php.unserialize resourceWrapper with
  | .throws ex => throw ex
  | .beyond => php.manageBeyond resourceWrapper now
  | .value v => do
    let responseWrapper ← manageValue php.toPhp v now
    return php.serialize responseWrapper

end MixedRequests
