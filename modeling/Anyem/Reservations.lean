import Anyem.PoolCells

/-!
# What an answered request tells about the pool

For each action, what the server's entry was and what it became when the
request was carried out. A reservation is an entry that is held by a
transaction id: `GET` makes one, and `PUT` and `RELEASE` need their own.
-/

namespace Reservations

open ReplyMachine Resource ResourceHolder ResourceManager PoolCells

variable {δ : Type}

/-- The entry at `k` is reserved by transaction `t`. -/
def ReservedBy (pool : Pool δ) (k : Bytes) (t : Option Bytes) : Prop :=
  ∃ r, pool k = some r ∧ r.reserved = true ∧ r.transactionId = t

theorem reservedBy_iff_held {pool : Pool δ} {k : Bytes} {t : Option Bytes} :
    ReservedBy pool k t ↔ ∃ v, cellOf (pool k) = .held v t := by
  constructor
  · rintro ⟨r, here, held, rfl⟩
    exact ⟨r.data, by rw [here, cellOf_reserved held]⟩
  · rintro ⟨v, hv⟩
    cases here : pool k with
    | none => simp [here, cellOf] at hv
    | some r =>
      cases held : r.reserved with
      | true =>
        rw [here, cellOf_reserved held] at hv
        cases hv
        exact ⟨r, here, held, rfl⟩
      | false =>
        rw [here, cellOf_free held] at hv
        cases hv

/-- A key is reserved by one transaction at a time. -/
theorem reservedBy_unique {pool : Pool δ} {k : Bytes} {t t' : Option Bytes}
    (held : ReservedBy pool k t) (held' : ReservedBy pool k t') : t = t' := by
  obtain ⟨r, here, -, rfl⟩ := held
  obtain ⟨r', here', -, rfl⟩ := held'
  have same : r = r' := Option.some.inj (here.symm.trans here')
  rw [same]

section Granted

variable {pool : Pool δ} {q : Request δ}

/-- A granted `GET` hands out the entry that it leaves reserved: the one it
found free, or its own resource when there was none. -/
theorem get_granted (action : q.action = IResourceHolder.get)
    (granted : Success (serve pool q).1) :
    ∃ r, (pool q.key = some r ∨ pool q.key = none ∧ r = q.resource) ∧ r.reserved = false ∧
      (serve pool q).1.resource = some (r.reservedBy q.transactionId q.clock) ∧
      (serve pool q).2 q.key = some (r.reservedBy q.transactionId q.clock) := by
  obtain ⟨p, ok, reply, left⟩ := granted_outcome granted
  rw [outcome_get _ action] at ok
  obtain ⟨r, found, free, rfl⟩ := getOutcome_ok ok
  exact ⟨r, found, free, reply, left⟩

theorem put_granted (action : q.action = IResourceHolder.put)
    (granted : Success (serve pool q).1) :
    ∃ r, pool q.key = some r ∧ r.reserved = true ∧ r.transactionId = q.transactionId ∧
      (serve pool q).1.resource = none ∧
      (serve pool q).2 q.key = some { r.unreserved q.clock with data := q.data } := by
  obtain ⟨p, ok, reply, left⟩ := granted_outcome granted
  rw [outcome_put _ action] at ok
  obtain ⟨r, found, held, own, rfl⟩ := unreserveOutcome_ok ok
  exact ⟨r, found, held, own, reply, left⟩

theorem release_granted (action : q.action = IResourceHolder.release)
    (granted : Success (serve pool q).1) :
    ∃ r, pool q.key = some r ∧ r.reserved = true ∧ r.transactionId = q.transactionId ∧
      (serve pool q).1.resource = none ∧
      (serve pool q).2 q.key = some (r.unreserved q.clock) := by
  obtain ⟨p, ok, reply, left⟩ := granted_outcome granted
  rw [outcome_release _ action] at ok
  obtain ⟨r, found, held, own, rfl⟩ := unreserveOutcome_ok ok
  exact ⟨r, found, held, own, reply, left⟩

theorem read_granted (action : q.action = IResourceHolder.read)
    (granted : Success (serve pool q).1) :
    ∃ r, pool q.key = some r ∧ (serve pool q).1.resource = some r ∧
      (serve pool q).2 q.key = some r := by
  obtain ⟨p, ok, reply, left⟩ := granted_outcome granted
  rw [outcome_read _ action] at ok
  cases found : pool q.key with
  | none => rw [found] at ok; cases ok
  | some r =>
    rw [found] at ok
    cases ok
    exact ⟨r, rfl, reply, left⟩

theorem delete_granted (action : q.action = IResourceHolder.delete)
    (granted : Success (serve pool q).1) :
    (∃ r, pool q.key = some r) ∧ (serve pool q).1.resource = none ∧
      (serve pool q).2 q.key = none := by
  obtain ⟨p, ok, reply, left⟩ := granted_outcome granted
  rw [outcome_delete _ action] at ok
  cases found : pool q.key with
  | none => rw [found] at ok; cases ok
  | some r =>
    rw [found] at ok
    cases ok
    exact ⟨⟨r, rfl⟩, reply, left⟩

/-- The two actions that end a reservation with its own transaction id. -/
def Closing (action : Bytes) : Prop :=
  action = IResourceHolder.put ∨ action = IResourceHolder.release

instance (action : Bytes) : Decidable (Closing action) :=
  inferInstanceAs (Decidable (_ ∨ _))

theorem closing_ne_get {action : Bytes} (closing : Closing action) :
    action ≠ IResourceHolder.get := by
  rcases closing with rfl | rfl
  · decide
  · decide

/-- A granted `GET` leaves the entry reserved by its own transaction. -/
theorem get_reserves (action : q.action = IResourceHolder.get)
    (granted : Success (serve pool q).1) :
    ReservedBy (serve pool q).2 q.key q.transactionId := by
  obtain ⟨r, -, -, -, left⟩ := get_granted action granted
  exact ⟨_, left, rfl, rfl⟩

theorem get_refused {t : Option Bytes} (held : ReservedBy pool q.key t)
    (action : q.action = IResourceHolder.get) : ¬ Success (serve pool q).1 := by
  obtain ⟨r, present, reserved, -⟩ := held
  rw [serve_reply, outcome_get _ action, present, ResourceHolderImpl.getOutcome, if_pos reserved]
  exact not_success_error _

/-- A granted `PUT` or `RELEASE` found the entry reserved by its own transaction. -/
theorem closing_reserved (closing : Closing q.action) (granted : Success (serve pool q).1) :
    ReservedBy pool q.key q.transactionId := by
  rcases closing with action | action
  · obtain ⟨r, present, held, own, -⟩ := put_granted action granted
    exact ⟨r, present, held, own⟩
  · obtain ⟨r, present, held, own, -⟩ := release_granted action granted
    exact ⟨r, present, held, own⟩

/-- After a granted `PUT` or `RELEASE` nobody holds the entry. -/
theorem closing_frees (closing : Closing q.action) (granted : Success (serve pool q).1)
    (t : Option Bytes) : ¬ ReservedBy (serve pool q).2 q.key t := by
  rintro ⟨r', left', reserved, -⟩
  rcases closing with action | action
  · obtain ⟨r, -, -, -, -, left⟩ := put_granted action granted
    cases left.symm.trans left'
    cases reserved
  · obtain ⟨r, -, -, -, -, left⟩ := release_granted action granted
    cases left.symm.trans left'
    cases reserved

/-- The holder of a reservation is granted its `PUT` and its `RELEASE`. -/
theorem closing_granted (held : ReservedBy pool q.key q.transactionId)
    (closing : Closing q.action) : Success (serve pool q).1 := by
  obtain ⟨r, present, reserved, own⟩ := held
  have own' : r.transactionId = q.resource.transactionId := own
  rw [serve_reply, success_respond, present]
  rcases closing with action | action
  · rw [outcome_put _ action, ResourceHolderImpl.putOutcome, ResourceHolderImpl.unreserveOutcome,
      if_neg (by simp [reserved]), if_neg (by simp [own'])]
    exact ⟨_, rfl⟩
  · rw [outcome_release _ action, ResourceHolderImpl.releaseOutcome,
      ResourceHolderImpl.unreserveOutcome, if_neg (by simp [reserved]), if_neg (by simp [own'])]
    exact ⟨_, rfl⟩

/-- A `GET` of a free entry is granted, and one of a missing entry when its own
resource comes in free. -/
theorem get_succeeds (action : q.action = IResourceHolder.get)
    (free : ∀ t, ¬ ReservedBy pool q.key t) (offered : q.resource.reserved = false) :
    Success (serve pool q).1 := by
  rw [serve_reply, success_respond, outcome_get _ action]
  cases present : pool q.key with
  | none =>
    rw [ResourceHolderImpl.getOutcome, if_neg (by simp [offered])]
    exact ⟨_, rfl⟩
  | some r =>
    have idle : ¬ r.reserved = true := fun reserved => free _ ⟨r, present, reserved, rfl⟩
    rw [ResourceHolderImpl.getOutcome, if_neg idle]
    exact ⟨_, rfl⟩

end Granted

end Reservations
