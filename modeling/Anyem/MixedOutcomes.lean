import Anyem.MixedRequests

/-!
# What a request of any type does

A request can be worked on when it is a wrapper around a resource with an
identifier whose parts have a text. What its action then does at its key is a
function of the request and the entry there. The log lines of the resources in
the pool can be built, since each was entered under its own key.
-/

namespace MixedRequests

open Resource ResourceHandles ResourceHolder ThrowingMethods

variable {ν σ : Type}

/-- `catch (Exception)` lets it through. -/
def Uncaught : Throwable → Prop
  | .exception _ => False
  | .memberCall _ => True

variable (php : Php ν)

/-- The merged identifier, if its parts are there and have a text. -/
def keyOf (resourceIdentifier : Mixed ν) : Option Bytes := do
  let i ← resourceIdentifier.view php.identifier
  let url ← i.url.text php
  let nameSpace ← i.nameSpace.text php
  let name ← i.name.text php
  return url ++ IResourceHolder.resourceIdentifierSeperator ++
    nameSpace ++ IResourceHolder.resourceIdentifierSeperator ++ name

section Strings

variable {php}

theorem shown_text {v : Mixed ν} {text : Bytes} (shows : v.text php = some text) (s : σ) :
    shown php v s = .ok text s := by
  rw [shown, shows]
  rfl

theorem shown_textless {v : Mixed ν} (textless : v.text php = none) (s : σ) :
    shown php v s = .error noText s := by
  rw [shown, textless]
  rfl

theorem identifierGet_some {identifier : Mixed ν} {i : IdentifierObject ν}
    (found : identifier.view php.identifier = some i) (method : Bytes)
    (property : IdentifierObject ν → Mixed ν) (s : σ) :
    identifierGet php method property identifier s = .ok (property i) s := by
  rw [identifierGet, found]
  rfl

theorem mergedKey_some {identifier : Mixed ν} {key : Bytes}
    (keyed : keyOf php identifier = some key) (s : σ) : mergedKey php identifier s = .ok key s := by
  simp only [keyOf, Option.bind_eq_bind, Option.bind_eq_some_iff] at keyed
  obtain ⟨i, found, url, hasUrl, nameSpace, hasNameSpace, name, hasName, same⟩ := keyed
  cases same
  simp only [mergedKey, getUrl, getNamespace, getName, bind_run, identifierGet_some found,
    shown_text hasUrl, shown_text hasNameSpace, shown_text hasName, pure_run]

theorem mergedKey_none {identifier : Mixed ν} (keyless : keyOf php identifier = none) (s : σ) :
    ∃ ex, mergedKey php identifier s = .error ex s ∧ Uncaught ex := by
  cases found : identifier.view php.identifier with
  | none =>
    refine ⟨.memberCall (ascii "getUrl"), ?_, trivial⟩
    rw [mergedKey, getUrl, identifierGet, found]
    rfl
  | some i =>
    refine ⟨noText, ?_, trivial⟩
    simp only [keyOf, found, Option.bind_eq_bind, Option.bind_some] at keyless
    simp only [mergedKey, getUrl, getNamespace, getName, bind_run, identifierGet_some found]
    cases hasUrl : i.url.text php with
    | none => simp only [shown_textless hasUrl]
    | some url =>
      cases hasNameSpace : i.nameSpace.text php with
      | none => simp only [shown_text hasUrl, shown_textless hasNameSpace]
      | some nameSpace =>
        cases hasName : i.name.text php with
        | none => simp only [shown_text hasUrl, shown_text hasNameSpace, shown_textless hasName]
        | some name =>
          simp only [hasUrl, hasNameSpace, hasName, Option.bind_some] at keyless
          cases keyless

variable (php) in
/-- The key of the resource can be built. -/
def Keyed (r : ResourceObject ν) : Prop := ∃ key, keyOf php r.resourceIdentifier = some key

/-- Then so can its log line. -/
theorem logged_keyed {r : ResourceObject ν} (keyed : Keyed php r) (s : σ) :
    Holder.logged php (some r) s = .ok () s := by
  obtain ⟨key, keyed⟩ := keyed
  simp only [keyOf, Option.bind_eq_bind, Option.bind_eq_some_iff] at keyed
  obtain ⟨i, found, url, hasUrl, nameSpace, hasNameSpace, name, hasName, -⟩ := keyed
  simp only [Holder.logged, ResourceObject.toString, getUrl, getNamespace, getName, bind_run,
    identifierGet_some found, shown_text hasUrl, shown_text hasNameSpace, shown_text hasName,
    pure_run]

end Strings

/-- A request that the holder can be built for. -/
structure Request (ν : Type) where
  action : Mixed ν
  resource : ResourceObject ν
  key : Bytes

/-- The request in a value that was received. -/
def requestOf (v : Mixed ν) : Option (Request ν) := do
  let w ← v.view php.wrapper
  let resource ← w.resource.view php.resource
  let key ← keyOf php resource.resourceIdentifier
  return ⟨w.action, resource, key⟩

/-- What an action does at its key: what it throws, or what it returns and the
entry it leaves. -/
abbrev Outcome (ν : Type) :=
  Except Throwable (Option (ResourceObject ν) × Option (ResourceObject ν))

/-- Throw the message with the text of a value in it. -/
def refusal (message : Option Bytes → Bytes) (v : Mixed ν) : Throwable :=
  match v.text php with
  | some text => .exception (message (some text))
  | none => noText

def getOutcome (given : ResourceObject ν) (now : Clock) (entry : Option (ResourceObject ν)) :
    Outcome ν :=
  let r := entry.getD given
  if r.reserved.isTrue = true then .error (refusal php ResourceImpl.alreadyReserved r.transactionId)
  else
    .ok (some (r.reservedBy given.transactionId now), some (r.reservedBy given.transactionId now))

/-- Throw the message with both transaction ids in it. -/
def foreignRefusal (holder given : Mixed ν) : Throwable :=
  match holder.text php, given.text php with
  | some holder, some given =>
    .exception (ResourceImpl.anotherTransaction (some holder) (some given))
  | _, _ => noText

/-- `unreserve` refuses the transaction id. -/
def Foreign (found : ResourceObject ν) (transactionId : Mixed ν) : Prop :=
  found.reserved.isTrue = true ∧ found.transactionId.identical php transactionId = false

instance (found : ResourceObject ν) (transactionId : Mixed ν) :
    Decidable (Foreign php found transactionId) := inferInstanceAs (Decidable (_ ∧ _))

/-- `PUT` and `RELEASE` differ in what they write after the unreservation. -/
def unreserveOutcome (action : Bytes) (write : ResourceObject ν → ResourceObject ν)
    (given : ResourceObject ν) (now : Clock) : Option (ResourceObject ν) → Outcome ν
  | none => .error (.exception (ResourceHolderImpl.inexistant action))
  | some found =>
    if found.reserved.isFalse = true then .error (.exception ResourceImpl.alreadyUnreserved)
    else if Foreign php found given.transactionId then
      .error (foreignRefusal php found.transactionId given.transactionId)
    else .ok (none, some (write (found.unreserved now)))

def putOutcome (given : ResourceObject ν) : Clock → Option (ResourceObject ν) → Outcome ν :=
  unreserveOutcome php IResourceHolder.put (fun r => { r with data := given.data }) given

def releaseOutcome (given : ResourceObject ν) : Clock → Option (ResourceObject ν) → Outcome ν :=
  unreserveOutcome php IResourceHolder.release id given

def readOutcome : Option (ResourceObject ν) → Outcome ν
  | none => .error (.exception ResourceHolderImpl.requestedNotFound)
  | some found => .ok (some found, some found)

def deleteOutcome : Option (ResourceObject ν) → Outcome ν
  | none => .error (.exception (ResourceHolderImpl.inexistant IResourceHolder.delete))
  | some _ => .ok (none, none)

def unknownOutcome (action : Mixed ν) (entry : Option (ResourceObject ν)) : Outcome ν :=
  match action.text php with
  | some _ => .ok (none, entry)
  | none => .error noText

def Request.outcome (q : Request ν) (now : Clock) (entry : Option (ResourceObject ν)) :
    Outcome ν :=
  if q.action.equals php IResourceHolder.get = true then getOutcome php q.resource now entry
  else if q.action.equals php IResourceHolder.put = true then putOutcome php q.resource now entry
  else if q.action.equals php IResourceHolder.release = true then
    releaseOutcome php q.resource now entry
  else if q.action.equals php IResourceHolder.read = true then readOutcome entry
  else if q.action.equals php IResourceHolder.delete = true then deleteOutcome entry
  else unknownOutcome php q.action entry

section Methods

variable {r : ResourceObject ν} (t : Mixed ν) (now : Clock)

theorem reserve_free (free : r.reserved.isTrue = false) :
    ResourceObject.reserve php t now r = .ok () (r.reservedBy t now) := by
  simp only [ResourceObject.reserve, bind_run, get_run, free]
  rfl

theorem reserve_held (held : r.reserved.isTrue = true) :
    ResourceObject.reserve php t now r =
      .error (refusal php ResourceImpl.alreadyReserved r.transactionId) r := by
  simp only [ResourceObject.reserve, bind_run, get_run, held]
  rw [if_pos trivial, refusal]
  cases shows : r.transactionId.text php with
  | none => simp only [bind_run, shown_textless shows]
  | some holder => simp only [bind_run, shown_text shows, throw_run]

theorem unreserve_run :
    ResourceObject.unreserve php t now r =
      if r.reserved.isFalse = true then .error (.exception ResourceImpl.alreadyUnreserved) r
      else if Foreign php r t then .error (foreignRefusal php r.transactionId t) r
      else .ok () (r.unreserved now) := by
  simp only [ResourceObject.unreserve, bind_run, get_run]
  by_cases free : r.reserved.isFalse = true
  · rw [if_pos free, if_pos free]
    rfl
  rw [if_neg free, if_neg free]
  by_cases foreign : Foreign php r t
  · have differs : r.reserved.isTrue = true ∧ r.transactionId.identical php t = false := foreign
    rw [if_pos differs, if_pos foreign, foreignRefusal]
    cases holder : r.transactionId.text php with
    | none => simp only [bind_run, shown_textless holder]
    | some text =>
      cases own : t.text php with
      | none => simp only [bind_run, shown_text holder, shown_textless own]
      | some text' => simp only [bind_run, shown_text holder, shown_text own, throw_run]
  · have agrees : ¬ (r.reserved.isTrue = true ∧ r.transactionId.identical php t = false) := foreign
    rw [if_neg agrees, if_neg foreign]
    rfl

end Methods

section Handlers

open ResourceHandles.Holder

variable {php} {h : Holder ν} {entry : Option (ResourceObject ν)} (now : Clock)

variable (php) in
/-- The resources that the holder may have to log can be. -/
structure Loggable (h : Holder ν) (entry : Option (ResourceObject ν)) : Prop where
  given : Keyed php h.givenResource
  found : ∀ r, entry = some r → Keyed php r

theorem execRead_yields (looked : h.LookedUp entry) :
    Yields id Holder.execRead h (readOutcome entry) := by
  cases entry with
  | none => exact yields_missing looked rfl _
  | some r =>
    refine yields_present looked _ ⟨h, ?_, pool_unchanged looked.1⟩
    rw [looked.1]
    rfl

theorem execDelete_yields (looked : h.LookedUp entry) (loggable : Loggable php h entry) :
    Yields id (Holder.execDelete php) h (deleteOutcome entry) := by
  cases entry with
  | none => exact yields_missing looked rfl _
  | some r =>
    let h' : Holder ν :=
      { h with resourcePool := Function.update h.resourcePool h.resourceIdentiferMerged none }
    have deleted : deleteEntryResourcePool h = .ok () h' := rfl
    refine yields_present looked _ ⟨h', ?_, rfl⟩
    rw [looked.1, bind_ok deleted]
    exact bind_ok (logged_keyed (loggable.found r rfl) h') _

/-- `execGet` once its flag has chosen the object to reserve. -/
theorem execGet_chosen (resource : Handle) {r : ResourceObject ν}
    (chosen : (if h.resourceExist = false then Handle.given else Handle.found) = resource)
    (here : h.deref resource = some r) (keyed : Keyed php r) :
    Yields id (Holder.execGet php now) h
      (if r.reserved.isTrue = true then
        .error (refusal php ResourceImpl.alreadyReserved r.transactionId)
      else .ok (some (r.reservedBy h.givenResource.transactionId now),
        some (r.reservedBy h.givenResource.transactionId now))) := by
  have same : Holder.execGet php now h =
      (do
        call resource (ascii "reserve")
          (ResourceObject.reserve php h.givenResource.transactionId now)
        updateResourcePool resource
        let after ← get
        Holder.logged php (after.deref resource)
        return after.deref resource) h := by
    simp only [Holder.execGet, bind_run, get_run, chosen]
  refine Yields.of_same ?_ same
  cases held : r.reserved.isTrue with
  | true => exact yields_refused here _ (reserve_held php _ now held) _
  | false =>
    have keyed' : Keyed php (r.reservedBy h.givenResource.transactionId now) := keyed
    refine yields_entered here _ (reserve_free php _ now held) ?_
    simp only [bind_run, get_run, entered_deref, logged_keyed keyed', pure_run]

theorem execGet_yields (looked : h.LookedUp entry) (loggable : Loggable php h entry) :
    Yields id (Holder.execGet php now) h (getOutcome php h.givenResource now entry) := by
  cases entry with
  | none => exact execGet_chosen now .given (if_pos looked.missing) rfl loggable.given
  | some r =>
    exact execGet_chosen now .found (if_neg looked.exist) looked.1 (loggable.found r rfl)

/-- `PUT` and `RELEASE` unreserve the resource that is there, which throws before
it writes; then `rest` is what is still to be done. -/
theorem unreserved_yields (action : Bytes) (write : ResourceObject ν → ResourceObject ν)
    {found : ResourceObject ν} (here : h.deref .found = some found) (keyed : Keyed php found)
    {rest : Unit → Method Throwable (Holder ν) (Option (ResourceObject ν))}
    (writes : ∀ r, Keyed php r → ∃ h', rest () (store .found r h) = .ok none h' ∧
      h'.resourcePool = Function.update h.resourcePool h.resourceIdentiferMerged (some (write r))) :
    Yields id
      (call .found (ascii "unreserve")
        (ResourceObject.unreserve php h.givenResource.transactionId now) >>= rest) h
      (unreserveOutcome php action write h.givenResource now (some found)) := by
  have ran := unreserve_run php h.givenResource.transactionId now (r := found)
  rw [unreserveOutcome]
  by_cases free : found.reserved.isFalse = true
  · rw [if_pos free] at ran ⊢
    exact yields_refused here _ ran rest
  rw [if_neg free] at ran ⊢
  by_cases foreign : Foreign php found h.givenResource.transactionId
  · rw [if_pos foreign] at ran ⊢
    exact yields_refused here _ ran rest
  · rw [if_neg foreign] at ran ⊢
    exact yields_written here _ ran (writes _ keyed)

theorem execPut_yields (looked : h.LookedUp entry) (loggable : Loggable php h entry) :
    Yields id (Holder.execPut php now) h (putOutcome php h.givenResource now entry) := by
  cases entry with
  | none => exact yields_missing looked rfl _
  | some found =>
    refine yields_present looked _
      (unreserved_yields now _ _ looked.1 (loggable.found found rfl) ?_)
    intro r keyed
    have set := call_ok (store_deref (h := h) .found r) (ascii "setData")
      (show ResourceObject.setData h.givenResource.data r =
        .ok () { r with data := h.givenResource.data } from rfl)
    have keyed' : Keyed php { r with data := h.givenResource.data } := keyed
    refine ⟨store .found { r with data := h.givenResource.data } (store .found r h),
      (bind_ok set _).trans ?_, ?_⟩
    · simp only [bind_run, get_run, store_deref, logged_keyed keyed', pure_run]
    · simp [store]

theorem execRelease_yields (looked : h.LookedUp entry) (loggable : Loggable php h entry) :
    Yields id (Holder.execRelease php now) h (releaseOutcome php h.givenResource now entry) := by
  cases entry with
  | none => exact yields_missing looked rfl _
  | some found =>
    refine yields_present looked _
      (unreserved_yields now _ _ looked.1 (loggable.found found rfl) ?_)
    intro r keyed
    refine ⟨store .found r h, ?_, rfl⟩
    simp only [bind_run, get_run, store_deref, logged_keyed keyed, pure_run]

theorem releaseOutcome_void {given : ResourceObject ν}
    {p : Option (ResourceObject ν) × Option (ResourceObject ν)}
    (ok : releaseOutcome php given now entry = .ok p) : p.1 = none := by
  cases entry with
  | none => cases ok
  | some found =>
    rw [releaseOutcome, unreserveOutcome] at ok
    split at ok
    · cases ok
    split at ok
    · cases ok
    · cases ok
      rfl

theorem unknown_yields (looked : h.LookedUp entry) :
    Yields id (do let _ ← shown php h.action; return none) h
      (unknownOutcome php h.action entry) := by
  rw [unknownOutcome]
  cases shows : h.action.text php with
  | none => exact ⟨h, bind_error (shown_textless shows h) _, rfl⟩
  | some text => exact ⟨h, bind_ok (shown_text shows h) _, pool_unchanged looked.1⟩

theorem execute_yields (looked : h.LookedUp entry) (loggable : Loggable php h entry) :
    Yields id (Holder.execute php now) h
      (Request.outcome php ⟨h.action, h.givenResource, h.resourceIdentiferMerged⟩ now entry) := by
  refine yields_ite (fun _ => execGet_yields now looked loggable) fun _ => ?_
  refine yields_ite (fun _ => execPut_yields now looked loggable) fun _ => ?_
  refine yields_ite (fun _ => ?_) fun _ => ?_
  · exact (execRelease_yields now looked loggable).discarded fun p ok => releaseOutcome_void now ok
  refine yields_ite (fun _ => execRead_yields looked) fun _ => ?_
  refine yields_ite (fun _ => execDelete_yields looked loggable) fun _ => ?_
  exact unknown_yields looked

end Handlers

section Manager

/-- Every resource in the pool can be logged. -/
def Sound (pool : Pool ν) : Prop := ∀ key r, pool key = some r → Keyed php r

/-- What `manage` makes of an outcome. -/
def respond (pool : Pool ν) (key : Bytes) :
    Outcome ν → EStateM.Result Throwable (Pool ν) (ResponseObject ν)
  | .error (.exception message) =>
    .ok ⟨none, some message, some IResponseWrapper.errorResponseCode⟩ pool
  | .error ex => .error ex pool
  | .ok (result, entry) =>
    .ok ⟨result, none, some IResponseWrapper.successResponseCode⟩ (Function.update pool key entry)

variable {php} {v : Mixed ν} {pool : Pool ν} (now : Clock)

theorem requestOf_some {q : Request ν} (request : requestOf php v = some q) :
    ∃ w, v.view php.wrapper = some w ∧ w.resource.view php.resource = some q.resource ∧
      keyOf php q.resource.resourceIdentifier = some q.key ∧ w.action = q.action := by
  simp only [requestOf, Option.bind_eq_bind, Option.bind_eq_some_iff] at request
  obtain ⟨w, wrapped, resource, carried, key, keyed, same⟩ := request
  cases same
  exact ⟨w, wrapped, carried, keyed, rfl⟩

/-- The constructor builds a holder that has looked its entry up. -/
theorem construct_run (sound : Sound php pool) (action : Mixed ν) {resource : Mixed ν}
    {given : ResourceObject ν} {key : Bytes} (carried : resource.view php.resource = some given)
    (keyed : keyOf php given.resourceIdentifier = some key) :
    Holder.construct php action resource pool =
      .ok ⟨pool, action, given, key, (pool key).isSome⟩ pool := by
  have logs : Keyed php given := ⟨key, keyed⟩
  simp only [Holder.construct, carried, bind_run, mergedKey_some keyed, get_run,
    Holder.resourceLookup, Holder.deref]
  cases here : pool key with
  | none => simp only [bind_run, logged_keyed logs, pure_run, Option.isSome_none]
  | some r => simp only [bind_run, logged_keyed (sound key r here), pure_run, Option.isSome_some]

/-- A request that the holder can be built for is answered as its outcome says. -/
theorem manageValue_request (sound : Sound php pool) {q : Request ν}
    (request : requestOf php v = some q) :
    manageValue php v now pool = respond pool q.key (q.outcome php now (pool q.key)) := by
  obtain ⟨w, wrapped, carried, keyed, acted⟩ := requestOf_some request
  let h : Holder ν := ⟨pool, q.action, q.resource, q.key, (pool q.key).isSome⟩
  have built : Holder.construct php w.action w.resource pool = .ok h pool := by
    rw [acted]
    exact construct_run sound q.action carried keyed
  have looked : h.LookedUp (pool q.key) := ⟨rfl, rfl⟩
  have loggable : Loggable php h (pool q.key) := ⟨⟨q.key, keyed⟩, fun r here => sound q.key r here⟩
  have yields := execute_yields now looked loggable
  change Yields id _ h (q.outcome php now (pool q.key)) at yields
  simp only [manageValue, tryCatch_run, getAction, getResource, wrapped, bind_run, pure_run, built,
    executeHolder]
  cases o : q.outcome php now (pool q.key) with
  | error ex =>
    rw [o] at yields
    obtain ⟨h', threw, same⟩ := yields
    simp only [threw, same]
    cases ex <;> rfl
  | ok p =>
    rw [o] at yields
    obtain ⟨h', ran, left⟩ := yields
    simp only [ran, left]
    rfl

/-- What is uncaught leaves the `try`. -/
theorem uncaught_leaves {body : Method Throwable (Pool ν) (ResponseObject ν)} {ex : Throwable}
    (threw : body pool = .error ex pool) (uncaught : Uncaught ex) :
    (tryCatch body (fun
      | .exception message => return ⟨none, some message, some IResponseWrapper.errorResponseCode⟩
      | ex => throw ex) : Method Throwable (Pool ν) (ResponseObject ν)) pool = .error ex pool := by
  rw [tryCatch_run, threw]
  cases ex with
  | exception message => exact False.elim uncaught
  | memberCall method => rfl

/-- For any other value an error leaves `manage`, with the pool as it was. -/
theorem manageValue_other (other : requestOf php v = none) :
    ∃ ex, manageValue php v now pool = .error ex pool := by
  cases wrapped : v.view php.wrapper with
  | none =>
    refine ⟨.memberCall (ascii "getAction"), uncaught_leaves ?_ trivial⟩
    simp only [getAction, wrapped, bind_run, throw_run]
  | some w =>
    cases carried : w.resource.view php.resource with
    | none =>
      refine ⟨.memberCall (ascii "getResourceIdenitifier"), uncaught_leaves ?_ trivial⟩
      simp only [getAction, getResource, wrapped, bind_run, pure_run, Holder.construct, carried,
        throw_run]
    | some given =>
      have keyless : keyOf php given.resourceIdentifier = none := by
        cases keyed : keyOf php given.resourceIdentifier with
        | none => rfl
        | some key =>
          simp only [requestOf, wrapped, carried, keyed, Option.bind_eq_bind, Option.bind_some]
            at other
          cases other
      obtain ⟨ex, threw, uncaught⟩ := mergedKey_none keyless pool
      refine ⟨ex, uncaught_leaves ?_ uncaught⟩
      simp only [getAction, getResource, wrapped, bind_run, pure_run, Holder.construct, carried,
        threw]

end Manager

end MixedRequests
