import Anyem.PoolCells

/-!
# The server looks at neither the data nor the clock

The handlers move the data of a resource about and write dates into it, but no
branch of theirs depends on either. Another run of the same requests, with
other data and at other times, is therefore answered in the same way; so a
reservation does not end by itself, however late the next request comes.
-/

namespace DataAndClock

open ReplyMachine Resource ResourceHolder ResourceManager PoolCells

variable {δ δ' : Type} (f : δ → δ')

/-- The resource with its data replaced and without its dates. -/
def seen (r : ResourceImpl δ) : ResourceImpl δ' where
  resourceIdentifier := r.resourceIdentifier
  data := f r.data
  reserved := r.reserved
  reservationDate := none
  reservationTime := none
  unreservationDate := none
  unreservationTime := none
  transactionId := r.transactionId

def seenPool (pool : Pool δ) : Pool δ' := fun k => (pool k).map (seen f)

def seenResponse (response : ResponseWrapperImpl δ) : ResponseWrapperImpl δ' where
  resource := response.resource.map (seen f)
  errorMessage := response.errorMessage
  responseCode := response.responseCode

/-- The request with its data replaced, at another time. -/
def changed (q : Request δ) (now : Clock) : Request δ' where
  action := q.action
  resource := { q.resource with data := f q.resource.data }
  identifier := q.identifier
  identified := q.identified
  clock := now

def seenRequest (q : Request δ) : Request δ' where
  action := q.action
  resource := seen f q.resource
  identifier := q.identifier
  identified := q.identified
  clock := ⟨[], []⟩

def seenOutcome : ResourceHolderImpl.Outcome δ → ResourceHolderImpl.Outcome δ'
  | .error message => .error message
  | .ok (result, left) => .ok (result.map (seen f), left.map (seen f))

section Handlers

variable (q : Request δ) (entry : Option (ResourceImpl δ))

theorem seen_get : seenOutcome id (ResourceHolderImpl.getOutcome (seen f q.resource) ⟨[], []⟩
      (entry.map (seen f))) =
    seenOutcome f (ResourceHolderImpl.getOutcome q.resource q.clock entry) := by
  cases entry with
  | none =>
    simp only [Option.map_none, ResourceHolderImpl.getOutcome]
    by_cases held : q.resource.reserved = true
    · rw [if_pos held, if_pos (show (seen f q.resource).reserved = true from held)]
      rfl
    · rw [if_neg held, if_neg (show ¬ (seen f q.resource).reserved = true from held)]
      rfl
  | some r =>
    simp only [Option.map_some, ResourceHolderImpl.getOutcome]
    by_cases held : r.reserved = true
    · rw [if_pos held, if_pos (show (seen f r).reserved = true from held)]
      rfl
    · rw [if_neg held, if_neg (show ¬ (seen f r).reserved = true from held)]
      rfl

/-- `PUT` and `RELEASE`, when nothing else is seen in what they write. -/
theorem seen_unreserve (action : Bytes) {write : ResourceImpl δ → ResourceImpl δ}
    {write' : ResourceImpl δ' → ResourceImpl δ'}
    (writes : ∀ r r', seen id r' = seen f r → seen id (write' r') = seen f (write r)) :
    seenOutcome id (ResourceHolderImpl.unreserveOutcome action write' (seen f q.resource) ⟨[], []⟩
      (entry.map (seen f))) =
    seenOutcome f (ResourceHolderImpl.unreserveOutcome action write q.resource q.clock entry) := by
  cases entry with
  | none => rfl
  | some r =>
    simp only [Option.map_some, ResourceHolderImpl.unreserveOutcome]
    by_cases free : r.reserved = false
    · rw [if_pos free, if_pos (show (seen f r).reserved = false from free)]
      rfl
    · rw [if_neg free, if_neg (show ¬ (seen f r).reserved = false from free)]
      by_cases foreign : r.transactionId ≠ q.resource.transactionId
      · rw [if_pos foreign,
          if_pos (show (seen f r).transactionId ≠ (seen f q.resource).transactionId from foreign)]
        rfl
      · rw [if_neg foreign,
          if_neg (show ¬ (seen f r).transactionId ≠ (seen f q.resource).transactionId from foreign)]
        have wrote : seen id (write' ((seen f r).unreserved ⟨[], []⟩)) =
            seen f (write (r.unreserved q.clock)) := writes _ _ rfl
        simp only [seenOutcome, Option.map_none, Option.map_some, wrote]

/-- What a request does depends on nothing that is not seen. -/
theorem seen_outcome :
    seenOutcome id ((seenRequest f q).outcome (entry.map (seen f))) =
      seenOutcome f (q.outcome entry) := by
  by_cases known : Known q.action
  · rcases known with action | action | action | action | action
    · rw [outcome_get _ action, outcome_get (q := seenRequest f q) _ action]
      exact seen_get f q entry
    · rw [outcome_put _ action, outcome_put (q := seenRequest f q) _ action]
      exact seen_unreserve f q entry _ fun r r' same =>
        congrArg (fun s : ResourceImpl δ' => { s with data := f q.resource.data }) same
    · rw [outcome_release _ action, outcome_release (q := seenRequest f q) _ action]
      exact seen_unreserve f q entry _ fun r r' same => same
    · rw [outcome_read _ action, outcome_read (q := seenRequest f q) _ action]
      cases entry <;> rfl
    · rw [outcome_delete _ action, outcome_delete (q := seenRequest f q) _ action]
      cases entry <;> rfl
  · rw [outcome_unknown _ known, outcome_unknown (q := seenRequest f q) _ known]
    cases entry <;> rfl

end Handlers

section Runs

/-- The server, as far as it is seen. -/
def seenServe (pool : Pool δ) (q : Request δ) : ResponseWrapperImpl δ × Pool δ :=
  (seenResponse id (serve pool q).1, seenPool id (serve pool q).2)

theorem seenResponse_respond (o : ResourceHolderImpl.Outcome δ) :
    seenResponse f (respond o) = respond (seenOutcome f o) := by
  cases o <;> rfl

theorem seenPool_update (pool : Pool δ) (k : Bytes) (entry : Option (ResourceImpl δ)) :
    seenPool f (Function.update pool k entry) =
      Function.update (seenPool f pool) k (entry.map (seen f)) := by
  funext k'
  by_cases same : k' = k
  · subst same
    simp [seenPool]
  · simp [seenPool, Function.update_of_ne same]

theorem seen_nextEntry (entry : Option (ResourceImpl δ)) (o : ResourceHolderImpl.Outcome δ) :
    (nextEntry entry o).map (seen f) = nextEntry (entry.map (seen f)) (seenOutcome f o) := by
  cases o <;> rfl

theorem seenPool_seenPool (pool : Pool δ) : seenPool id (seenPool f pool) = seenPool f pool := by
  funext k
  exact Option.map_map ..

theorem seenServe_follows (pool : Pool δ) (q : Request δ) :
    seenServe (seenPool f pool) (seenRequest f q) =
      (seenResponse f (serve pool q).1, seenPool f (serve pool q).2) := by
  have here : seenPool f pool (seenRequest f q).key = (pool q.key).map (seen f) := rfl
  have outcome := seen_outcome f q (pool q.key)
  have again : ((pool q.key).map (seen f)).map (seen id) = (pool q.key).map (seen f) :=
    Option.map_map ..
  rw [seenServe, serve_eq, serve_eq]
  simp only [seenResponse_respond, seenPool_update, seen_nextEntry, seenPool_seenPool, here,
    outcome, again]
  rfl

/-- Every run is one of the server as far as it is seen. -/
def follows : Simulation (serve (δ := δ)) (seenServe (δ := δ')) where
  abs := seenPool f
  inp := fun q => some (seenRequest f q)
  out := fun _ => seenResponse f
  quiet := by
    intro pool q dropped
    cases dropped
  follows := by
    intro pool q seenQ kept
    cases kept
    exact seenServe_follows f pool q

/-- The same requests with other data and at other times, on a pool with other
data and dates, get the same replies and leave the same pool, up to data and
dates; and the data are the other ones in the same places. -/
theorem server_sees_neither_data_nor_clock (pool : Pool δ) (pool' : Pool δ')
    (same : seenPool id pool' = seenPool f pool) (qs : List (Request δ × Clock)) :
    let other := qs.map fun p => changed f p.1 p.2
    (replies serve pool' other).map (seenResponse id) =
        (replies serve pool (qs.map Prod.fst)).map (seenResponse f) ∧
      seenPool id (final serve pool' other) = seenPool f (final serve pool (qs.map Prod.fst)) := by
  intro other
  have inputs : other.map (seenRequest id) = (qs.map Prod.fst).map (seenRequest f) := by
    simp only [other, List.map_map]
    exact List.map_congr_left fun p _ => rfl
  constructor
  · have first : (replies serve pool _).map (seenResponse f) =
        replies seenServe (seenPool f pool) ((qs.map Prod.fst).map (seenRequest f)) :=
      (follows f).replies_eq (fun _ => rfl) (fun _ _ => rfl) pool _
    have second : (replies serve pool' other).map (seenResponse id) =
        replies seenServe (seenPool id pool') (other.map (seenRequest id)) :=
      (follows id).replies_eq (fun _ => rfl) (fun _ _ => rfl) pool' _
    rw [first, second, inputs, same]
  · have first := (follows f).final_eq pool (qs.map Prod.fst)
    have second := (follows id).final_eq pool' other
    simp only [follows, List.filterMap_eq_map'] at first second
    rw [first, second, inputs, same]

/-- Somebody asks for a held variable on the same day, or two years later. -/
theorem old_reservation_refuses :
    let takes : Request ℕ := sampleRequest IResourceHolder.get "first" 5
    let asks : Request ℕ := sampleRequest IResourceHolder.get "second" 0
    let later : Clock := ⟨ascii "2017-06-01", ascii "10:00:00:000000"⟩
    (replies serve emptyPool [takes, changed id asks later]).map (seenResponse id) =
      (replies serve emptyPool [takes, asks]).map (seenResponse id) := by
  intro takes asks later
  exact (server_sees_neither_data_nor_clock id emptyPool emptyPool rfl
    [(takes, takes.clock), (asks, later)]).1

end Runs

end DataAndClock
