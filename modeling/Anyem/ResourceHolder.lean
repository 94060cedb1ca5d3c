import Anyem.ResourceHandles

/-!
# The resource holder and its five actions

`ResourceHolderImpl` looks the given resource up in the static pool and runs
the asked action. Judy is an exact string-keyed map, and the lookup by
reference of a missing key gives `NULL` and inserts nothing. The properties have
the types that the source declares.
Log lines are left out: `toString` is called on resources only whose identifier
has been asked for its url before.
-/

namespace ResourceHolder

open Resource ResourceHandles ThrowingMethods

variable {δ : Type}

/-- The static `_RESOURCE_POOL`. -/
abbrev Pool (δ : Type) := Bytes → Option (ResourceImpl δ)

def mergedKey (i : ResourceIdentifierImpl) : Bytes :=
  i.url ++ IResourceHolder.resourceIdentifierSeperator ++
    i.nameSpace ++ IResourceHolder.resourceIdentifierSeperator ++ i.name

abbrev ResourceHolderImpl (δ : Type) := Holder Bytes (ResourceImpl δ)

namespace ResourceHolderImpl

open ResourceHandles.Holder

def resourceLookup (h : ResourceHolderImpl δ) : ResourceHolderImpl δ :=
  { h with resourceExist := (h.resourcePool h.resourceIdentiferMerged).isSome }

/-- The constructor, over the pool as it stands. -/
def construct (pool : Pool δ) (action : Bytes) (givenResource : Option (ResourceImpl δ)) :
    Except Throwable (ResourceHolderImpl δ) :=
  match givenResource with
  | none => .error (.memberCall (ascii "getResourceIdenitifier"))
  | some given =>
    match given.resourceIdentifier with
    | none => .error (.memberCall (ascii "getUrl"))
    | some resourceIdentifier => .ok (resourceLookup
        { resourcePool := pool
          action := action
          givenResource := given
          resourceIdentiferMerged := mergedKey resourceIdentifier
          resourceExist := false })

def requestedNotFound : Bytes := ascii "requested resource not found"

def inexistant (action : Bytes) : Bytes :=
  ascii "can not execute <" ++ action ++ ascii "> on inexistant resource"

def execRead : Method Throwable (ResourceHolderImpl δ) (Option (ResourceImpl δ)) := do
  let this ← get
  if this.resourceExist = false then
    throw (.exception requestedNotFound)
  return this.deref .found

def execPut (now : Clock) :
    Method Throwable (ResourceHolderImpl δ) (Option (ResourceImpl δ)) := do
  let this ← get
  if this.resourceExist = false then
    throw (.exception (inexistant IResourceHolder.put))
  call .found (ascii "unreserve")
    (ResourceImpl.unreserve this.givenResource.transactionId now)
  call .found (ascii "setData") (ResourceImpl.setData this.givenResource.data)
  return none

def execDelete : Method Throwable (ResourceHolderImpl δ) (Option (ResourceImpl δ)) := do
  let this ← get
  if this.resourceExist = false then
    throw (.exception (inexistant IResourceHolder.delete))
  deleteEntryResourcePool
  return none

def execGet (now : Clock) :
    Method Throwable (ResourceHolderImpl δ) (Option (ResourceImpl δ)) := do
  let this ← get
  let resource := if this.resourceExist = false then Handle.given else Handle.found
  call resource (ascii "reserve") (ResourceImpl.reserve this.givenResource.transactionId now)
  updateResourcePool resource
  let after ← get
  return after.deref resource

def execRelease (now : Clock) :
    Method Throwable (ResourceHolderImpl δ) (Option (ResourceImpl δ)) := do
  let this ← get
  if this.resourceExist = false then
    throw (.exception (inexistant IResourceHolder.release))
  call .found (ascii "unreserve")
    (ResourceImpl.unreserve this.givenResource.transactionId now)
  return none

/-- The `switch` compares strings none of which is a number, so it compares them
as strings. An unknown action is logged as an error and returns `NULL`. -/
def execute (now : Clock) :
    Method Throwable (ResourceHolderImpl δ) (Option (ResourceImpl δ)) := do
  let this ← get
  if this.action = IResourceHolder.get then execGet now
  else if this.action = IResourceHolder.put then execPut now
  else if this.action = IResourceHolder.release then do
    let _ ← execRelease now
    return none
  else if this.action = IResourceHolder.read then execRead
  else if this.action = IResourceHolder.delete then execDelete
  else return none

section Outcomes

/-- What an action does at its key: the message of the exception it throws, or
what it returns and the entry it leaves. -/
abbrev Outcome (δ : Type) := Except Bytes (Option (ResourceImpl δ) × Option (ResourceImpl δ))

def getOutcome (given : ResourceImpl δ) (now : Clock) :
    Option (ResourceImpl δ) → Outcome δ
  | none =>
    if given.reserved = true then .error (ResourceImpl.alreadyReserved given.transactionId)
    else
      let r := given.reservedBy given.transactionId now
      .ok (some r, some r)
  | some found =>
    if found.reserved = true then .error (ResourceImpl.alreadyReserved found.transactionId)
    else
      let r := found.reservedBy given.transactionId now
      .ok (some r, some r)

/-- `PUT` and `RELEASE` differ in what they write after the unreservation. -/
def unreserveOutcome (action : Bytes) (write : ResourceImpl δ → ResourceImpl δ)
    (given : ResourceImpl δ) (now : Clock) : Option (ResourceImpl δ) → Outcome δ
  | none => .error (inexistant action)
  | some found =>
    if found.reserved = false then .error ResourceImpl.alreadyUnreserved
    else if found.transactionId ≠ given.transactionId then
      .error (ResourceImpl.anotherTransaction found.transactionId given.transactionId)
    else .ok (none, some (write (found.unreserved now)))

def putOutcome (given : ResourceImpl δ) : Clock → Option (ResourceImpl δ) → Outcome δ :=
  unreserveOutcome IResourceHolder.put (fun r => { r with data := given.data }) given

def releaseOutcome (given : ResourceImpl δ) : Clock → Option (ResourceImpl δ) → Outcome δ :=
  unreserveOutcome IResourceHolder.release id given

def readOutcome : Option (ResourceImpl δ) → Outcome δ
  | none => .error requestedNotFound
  | some found => .ok (some found, some found)

def deleteOutcome : Option (ResourceImpl δ) → Outcome δ
  | none => .error (inexistant IResourceHolder.delete)
  | some _ => .ok (none, none)

def outcome (action : Bytes) (given : ResourceImpl δ) (now : Clock)
    (entry : Option (ResourceImpl δ)) : Outcome δ :=
  if action = IResourceHolder.get then getOutcome given now entry
  else if action = IResourceHolder.put then putOutcome given now entry
  else if action = IResourceHolder.release then releaseOutcome given now entry
  else if action = IResourceHolder.read then readOutcome entry
  else if action = IResourceHolder.delete then deleteOutcome entry
  else .ok (none, entry)

variable {h : ResourceHolderImpl δ}

theorem execRead_yields {entry : Option (ResourceImpl δ)} (looked : h.LookedUp entry) :
    Yields .exception execRead h (readOutcome entry) := by
  cases entry with
  | none => exact yields_missing looked rfl _
  | some r =>
    refine yields_present looked _ ⟨h, ?_, pool_unchanged looked.1⟩
    rw [looked.1]
    rfl

theorem execDelete_yields {entry : Option (ResourceImpl δ)} (looked : h.LookedUp entry) :
    Yields .exception execDelete h (deleteOutcome entry) := by
  cases entry with
  | none => exact yields_missing looked rfl _
  | some r => exact yields_present looked _ ⟨_, rfl, rfl⟩

/-- `execGet` once its flag has chosen the object to reserve. -/
theorem execGet_chosen (now : Clock) (resource : Handle) {r : ResourceImpl δ}
    (chosen : (if h.resourceExist = false then Handle.given else Handle.found) = resource)
    (here : h.deref resource = some r) :
    Yields .exception (execGet now) h
      (if r.reserved = true then .error (ResourceImpl.alreadyReserved r.transactionId)
      else .ok (some (r.reservedBy h.givenResource.transactionId now),
        some (r.reservedBy h.givenResource.transactionId now))) := by
  have same : execGet now h =
      (do
        call resource (ascii "reserve") (ResourceImpl.reserve h.givenResource.transactionId now)
        updateResourcePool resource
        let after ← get
        return after.deref resource) h := by
    simp only [execGet, bind_run, get_run, chosen]
  refine Yields.of_same ?_ same
  cases held : r.reserved with
  | true => exact yields_refused here _ (ResourceImpl.reserve_held held _ now) _
  | false =>
    refine yields_entered here _ (ResourceImpl.reserve_free held _ now) ?_
    simp only [bind_run, get_run, entered_deref, pure_run]

theorem execGet_yields (now : Clock) {entry : Option (ResourceImpl δ)}
    (looked : h.LookedUp entry) :
    Yields .exception (execGet now) h (getOutcome h.givenResource now entry) := by
  cases entry with
  | none => exact execGet_chosen now .given (if_pos looked.missing) rfl
  | some r => exact execGet_chosen now .found (if_neg looked.exist) looked.1

/-- `PUT` and `RELEASE` unreserve the resource that is there, which throws before
it writes; then `rest` is what is still to be done. -/
theorem unreserved_yields (action : Bytes) (write : ResourceImpl δ → ResourceImpl δ) (now : Clock)
    {found : ResourceImpl δ} (here : h.deref .found = some found)
    {rest : Unit → Method Throwable (ResourceHolderImpl δ) (Option (ResourceImpl δ))}
    (writes : ∀ r, ∃ h', rest () (store .found r h) = .ok none h' ∧
      h'.resourcePool = Function.update h.resourcePool h.resourceIdentiferMerged (some (write r))) :
    Yields .exception
      (call .found (ascii "unreserve")
        (ResourceImpl.unreserve h.givenResource.transactionId now) >>= rest) h
      (unreserveOutcome action write h.givenResource now (some found)) := by
  rw [unreserveOutcome]
  by_cases free : found.reserved = false
  · rw [if_pos free]
    exact yields_refused here _ (ResourceImpl.unreserve_free free _ now) rest
  have held : found.reserved = true := by simpa using free
  rw [if_neg free]
  by_cases foreign : found.transactionId ≠ h.givenResource.transactionId
  · rw [if_pos foreign]
    exact yields_refused here _ (ResourceImpl.unreserve_foreign held foreign now) rest
  · have own : found.transactionId = h.givenResource.transactionId := not_not.mp foreign
    rw [if_neg foreign, ← own]
    exact yields_written here _ (ResourceImpl.unreserve_own held now) (writes _)

theorem execPut_yields (now : Clock) {entry : Option (ResourceImpl δ)}
    (looked : h.LookedUp entry) :
    Yields .exception (execPut now) h (putOutcome h.givenResource now entry) := by
  cases entry with
  | none => exact yields_missing looked rfl _
  | some found =>
    refine yields_present looked _ (unreserved_yields _ _ now looked.1 ?_)
    intro r
    have set := call_ok (store_deref (h := h) .found r) (ascii "setData")
      (show ResourceImpl.setData h.givenResource.data r =
        .ok () { r with data := h.givenResource.data } from rfl)
    refine ⟨_, bind_ok set _, ?_⟩
    simp [store]

theorem execRelease_yields (now : Clock) {entry : Option (ResourceImpl δ)}
    (looked : h.LookedUp entry) :
    Yields .exception (execRelease now) h (releaseOutcome h.givenResource now entry) := by
  cases entry with
  | none => exact yields_missing looked rfl _
  | some found =>
    exact yields_present looked _ (unreserved_yields _ _ now looked.1 fun r => ⟨_, rfl, rfl⟩)

theorem releaseOutcome_void {given : ResourceImpl δ} {now : Clock}
    {entry : Option (ResourceImpl δ)} {p : Option (ResourceImpl δ) × Option (ResourceImpl δ)}
    (ok : releaseOutcome given now entry = .ok p) : p.1 = none := by
  cases entry with
  | none => cases ok
  | some found =>
    rw [releaseOutcome, unreserveOutcome] at ok
    split at ok
    · cases ok
    split at ok
    · cases ok
    · cases ok
      rfl

theorem execute_yields (now : Clock) {entry : Option (ResourceImpl δ)}
    (looked : h.LookedUp entry) :
    Yields .exception (execute now) h (outcome h.action h.givenResource now entry) := by
  refine yields_ite (fun _ => execGet_yields now looked) fun _ => ?_
  refine yields_ite (fun _ => execPut_yields now looked) fun _ => ?_
  refine yields_ite (fun _ => ?_) fun _ => ?_
  · exact (execRelease_yields now looked).discarded fun p ok => releaseOutcome_void ok
  refine yields_ite (fun _ => execRead_yields looked) fun _ => ?_
  refine yields_ite (fun _ => execDelete_yields looked) fun _ => ?_
  exact ⟨h, rfl, pool_unchanged looked.1⟩

end Outcomes

end ResourceHolderImpl

end ResourceHolder
