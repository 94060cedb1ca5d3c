import Anyem.Resource

/-!
# Handles on the resources of a holder

A holder has a handle on the resource that it was given, and one on the resource
in the static pool at its key. A method called through a handle changes the
object there, so through the second one it changes the pool. What kinds of
actions and resources these are is left open.
-/

namespace ResourceHandles

open Resource ThrowingMethods

variable {A R E α : Type}

/-- The properties of a `ResourceHolderImpl`, with the static pool. -/
structure Holder (A R : Type) where
  resourcePool : Bytes → Option R
  action : A
  givenResource : R
  resourceIdentiferMerged : Bytes
  resourceExist : Bool

/-- The two objects a holder has a handle on. -/
inductive Handle where
  | given
  | found

namespace Holder

def deref (h : Holder A R) : Handle → Option R
  | .given => some h.givenResource
  | .found => h.resourcePool h.resourceIdentiferMerged

def store (resource : Handle) (r : R) (h : Holder A R) : Holder A R :=
  match resource with
  | .given => { h with givenResource := r }
  | .found => { h with
      resourcePool := Function.update h.resourcePool h.resourceIdentiferMerged (some r) }

/-- Call a method of the object behind a handle. -/
def call (resource : Handle) (method : Bytes) (body : Method Throwable R α) :
    Method Throwable (Holder A R) α :=
  onPart (fun h => h.deref resource) (store resource) (.memberCall method) body

def updateResourcePool (resource : Handle) : Method Throwable (Holder A R) Unit :=
  modify fun h => { h with
    resourcePool := Function.update h.resourcePool h.resourceIdentiferMerged (h.deref resource) }

def deleteEntryResourcePool : Method Throwable (Holder A R) Unit :=
  modify fun h => { h with
    resourcePool := Function.update h.resourcePool h.resourceIdentiferMerged none }

/-- The handle and the flag are those of `resourceLookup`. -/
def LookedUp (h : Holder A R) (entry : Option R) : Prop :=
  h.deref .found = entry ∧ h.resourceExist = entry.isSome

variable {h : Holder A R} {entry : Option R}

theorem LookedUp.missing (looked : h.LookedUp none) : h.resourceExist = false := looked.2

theorem LookedUp.exist {r : R} (looked : h.LookedUp (some r)) : ¬ h.resourceExist = false := by
  simp [looked.2]

theorem pool_unchanged (here : h.deref .found = entry) :
    h.resourcePool = Function.update h.resourcePool h.resourceIdentiferMerged entry := by
  change h.resourcePool h.resourceIdentiferMerged = entry at here
  rw [← here, Function.update_eq_self]

theorem call_ok {resource : Handle} {r r' : R} (here : h.deref resource = some r) (method : Bytes)
    {body : Method Throwable R α} {a : α} (ran : body r = .ok a r') :
    call resource method body h = .ok a (store resource r' h) :=
  onPart_ok (fun h : Holder A R => h.deref resource) here (store resource)
    (Throwable.memberCall method) ran

theorem call_error {resource : Handle} {r : R} (here : h.deref resource = some r) (method : Bytes)
    {body : Method Throwable R α} {e : Throwable} (threw : body r = .error e r) :
    call resource method body h = .error e (store resource r h) :=
  onPart_error (fun h : Holder A R => h.deref resource) here (store resource)
    (Throwable.memberCall method) threw

@[simp] theorem store_deref (resource : Handle) (r : R) :
    (store resource r h).deref resource = some r := by
  cases resource <;> simp [store, deref]

/-- The holder after the object behind a handle was entered under the key. -/
def entered (resource : Handle) (r : R) (h : Holder A R) : Holder A R :=
  { store resource r h with
    resourcePool := Function.update h.resourcePool h.resourceIdentiferMerged (some r) }

theorem updateResourcePool_run (resource : Handle) (r : R) :
    updateResourcePool resource (store resource r h) = .ok () (entered resource r h) := by
  cases resource <;> simp [updateResourcePool, entered, store, deref]

@[simp] theorem entered_deref (resource : Handle) (r : R) :
    (entered resource r h).deref resource = some r := by
  cases resource <;> simp [entered, store, deref]

theorem store_pool_of_eq {resource : Handle} {r : R} (here : h.deref resource = some r) :
    (store resource r h).resourcePool = h.resourcePool := by
  cases resource with
  | given => rfl
  | found => exact (pool_unchanged here).symm

end Holder

section Outcomes

open Holder

/-- What a body does at the key of its holder: what it throws, as `lift` says, with
the pool as it was, or what it returns and the entry it leaves there, with no
other entry changed. -/
def Yields (lift : E → Throwable) (body : Method Throwable (Holder A R) (Option R))
    (h : Holder A R) : Except E (Option R × Option R) → Prop
  | .error e => ∃ h', body h = .error (lift e) h' ∧ h'.resourcePool = h.resourcePool
  | .ok (result, entry) => ∃ h', body h = .ok result h' ∧
      h'.resourcePool = Function.update h.resourcePool h.resourceIdentiferMerged entry

variable {lift : E → Throwable} {body body' : Method Throwable (Holder A R) (Option R)}
  {h : Holder A R} {o o' : Except E (Option R × Option R)} {r r' : R} {e : E} {message : Bytes}

theorem Yields.of_same (yields : Yields lift body' h o) (same : body h = body' h) :
    Yields lift body h o := by
  match o with
  | .error e =>
    obtain ⟨h', threw, pool⟩ := yields
    exact ⟨h', same.trans threw, pool⟩
  | .ok (result, entry) =>
    obtain ⟨h', ran, pool⟩ := yields
    exact ⟨h', same.trans ran, pool⟩

/-- Running a body only for its effect gives `NULL` when the body does. -/
theorem Yields.discarded (yields : Yields lift body h o) (void : ∀ p, o = .ok p → p.1 = none) :
    Yields lift (do let _ ← body; return none) h o := by
  match o with
  | .error e =>
    obtain ⟨h', threw, pool⟩ := yields
    exact ⟨h', bind_error threw _, pool⟩
  | .ok (result, entry) =>
    obtain ⟨h', ran, pool⟩ := yields
    have nothing : result = none := void _ rfl
    subst nothing
    exact ⟨h', bind_ok ran _, pool⟩

theorem yields_ite {c : Prop} [Decidable c] (holds : c → Yields lift body h o)
    (fails : ¬ c → Yields lift body' h o') :
    Yields lift (if c then body else body') h (if c then o else o') := by
  split
  · rename_i here
    exact holds here
  · rename_i here
    exact fails here

/-- The handlers that need an entry throw without one. -/
theorem yields_missing (looked : h.LookedUp none) (lifted : lift e = .exception message)
    (rest : Holder A R → Method Throwable (Holder A R) (Option R)) :
    Yields lift
      (do
        let this ← get
        if this.resourceExist = false then
          throw (.exception message)
        rest this) h (.error e) := by
  refine ⟨h, ?_, rfl⟩
  simp only [bind_run, get_run, if_pos looked.missing, throw_run, lifted]

theorem yields_present (looked : h.LookedUp (some r)) (message : Bytes)
    {rest : Holder A R → Method Throwable (Holder A R) (Option R)}
    (yields : Yields lift (rest h) h o) :
    Yields lift
      (do
        let this ← get
        if this.resourceExist = false then
          throw (.exception message)
        rest this) h o := by
  refine yields.of_same ?_
  simp only [bind_run, get_run, if_neg looked.exist]

/-- A method that throws leaves its object as it was. -/
theorem yields_refused {resource : Handle} (here : h.deref resource = some r) (method : Bytes)
    {refuses : Method Throwable R Unit} (threw : refuses r = .error (lift e) r)
    (rest : Unit → Method Throwable (Holder A R) (Option R)) :
    Yields lift (call resource method refuses >>= rest) h (.error e) :=
  ⟨_, bind_error (call_error here method threw) rest, store_pool_of_eq here⟩

/-- What a method writes through the handle on the pool is the entry then. -/
theorem yields_written (here : h.deref .found = some r) (method : Bytes)
    {writes : Method Throwable R Unit} (ran : writes r = .ok () r')
    {rest : Unit → Method Throwable (Holder A R) (Option R)} {result : Option R} {left : R}
    (done : ∃ h', rest () (store .found r' h) = .ok result h' ∧
      h'.resourcePool = Function.update h.resourcePool h.resourceIdentiferMerged (some left)) :
    Yields lift (call .found method writes >>= rest) h (.ok (result, some left)) := by
  obtain ⟨h', done, pool⟩ := done
  exact ⟨h', (bind_ok (call_ok here method ran) rest).trans done, pool⟩

/-- The object behind either handle is the entry after it was entered. -/
theorem yields_entered {resource : Handle} (here : h.deref resource = some r) (method : Bytes)
    {writes : Method Throwable R Unit} (ran : writes r = .ok () r')
    {rest : Method Throwable (Holder A R) (Option R)}
    (done : rest (entered resource r' h) = .ok (some r') (entered resource r' h)) :
    Yields lift
      (do
        call resource method writes
        updateResourcePool resource
        rest) h (.ok (some r', some r')) := by
  refine ⟨entered resource r' h, ?_, rfl⟩
  rw [bind_ok (call_ok here method ran), bind_ok (updateResourcePool_run resource r')]
  exact done

end Outcomes

end ResourceHandles
