import Anyem.ReservedCell
import Anyem.ResourceManager

/-!
# The pool is a family of reserved cells

Seen at one key, the server is the reserved cell of that key: an entry is a
free or a held value, a request for the key is a request to the cell, and
requests for other keys pass it by. Runs of the server are therefore runs of
the cells, and the laws of a cell hold at every key of every reachable pool.
-/

namespace PoolCells

open ReplyMachine Resource ResourceHolder ResourceManager ReservedCell

variable {δ : Type}

def emptyPool : Pool δ := fun _ => none

/-- The pool after serving the requests in turn, starting from the empty one. -/
def Reachable (pool : Pool δ) : Prop :=
  ∃ qs : List (ResourceManager.Request δ), pool = final serve emptyPool qs

/-- The reply says that the request was carried out. -/
def Success (response : ResponseWrapperImpl δ) : Prop :=
  response.responseCode = some IResponseWrapper.successResponseCode

instance (response : ResponseWrapperImpl δ) : Decidable (Success response) :=
  inferInstanceAs (Decidable (_ = _))

/-- The reply says that the request was refused. -/
def Refused (response : ResponseWrapperImpl δ) : Prop :=
  response.responseCode = some IResponseWrapper.errorResponseCode

instance (response : ResponseWrapperImpl δ) : Decidable (Refused response) :=
  inferInstanceAs (Decidable (_ = _))

theorem not_success_error (message : Bytes) :
    ¬ Success (respond (.error message : ResourceHolderImpl.Outcome δ)) := by
  simp [Success, respond, IResponseWrapper.errorResponseCode,
    IResponseWrapper.successResponseCode]

theorem success_respond (o : ResourceHolderImpl.Outcome δ) :
    Success (respond o) ↔ ∃ p, o = .ok p := by
  cases o with
  | error message => exact iff_of_false (not_success_error message) (by simp)
  | ok p => exact iff_of_true rfl ⟨p, rfl⟩

theorem respond_refused {o : ResourceHolderImpl.Outcome δ} (refused : ¬ Success (respond o)) :
    ∃ message, o = .error message := by
  cases o with
  | error message => exact ⟨message, rfl⟩
  | ok p => exact False.elim (refused rfl)

section OneRequest

variable (pool : Pool δ) (q : ResourceManager.Request δ)

theorem serve_reply : (serve pool q).1 = respond (q.outcome (pool q.key)) := by
  rw [serve_eq]

theorem serve_here :
    (serve pool q).2 q.key = nextEntry (pool q.key) (q.outcome (pool q.key)) := by
  rw [serve_eq]
  exact Function.update_self ..

theorem serve_elsewhere {k : Bytes} (other : q.key ≠ k) : (serve pool q).2 k = pool k := by
  rw [serve_eq]
  exact Function.update_of_ne other.symm ..

/-- The server answers every request with one of its two codes. -/
theorem serve_refused_iff : Refused (serve pool q).1 ↔ ¬ Success (serve pool q).1 := by
  rw [serve_reply]
  cases q.outcome (pool q.key) with
  | error message => exact iff_of_true rfl (not_success_error message)
  | ok p => exact iff_of_false (by simp [Refused, respond, IResponseWrapper.errorResponseCode,
      IResponseWrapper.successResponseCode]) (fun refused => refused rfl)

/-- The server keeps a pool that the request's outcome keeps. -/
theorem serve_unchanged (same : nextEntry (pool q.key) (q.outcome (pool q.key)) = pool q.key) :
    (serve pool q).2 = pool := by
  rw [serve_eq, same, Function.update_eq_self]

/-- A refused request has an outcome with a message, and leaves the pool. -/
theorem refused_outcome (refused : ¬ Success (serve pool q).1) :
    ∃ message, q.outcome (pool q.key) = .error message ∧
      (serve pool q).1 = ⟨none, some message, some IResponseWrapper.errorResponseCode⟩ := by
  have reply := serve_reply pool q
  rw [reply] at refused
  obtain ⟨message, threw⟩ := respond_refused refused
  rw [threw] at reply
  exact ⟨message, threw, reply⟩

theorem refused_serve (refused : ¬ Success (serve pool q).1) : (serve pool q).2 = pool := by
  obtain ⟨message, threw, -⟩ := refused_outcome pool q refused
  exact serve_unchanged pool q (by rw [threw]; rfl)

variable {pool q}

/-- A granted request has an outcome, which is its reply and the entry it leaves. -/
theorem granted_outcome (granted : Success (serve pool q).1) :
    ∃ p, q.outcome (pool q.key) = .ok p ∧ (serve pool q).1.resource = p.1 ∧
      (serve pool q).2 q.key = p.2 := by
  have reply := serve_reply pool q
  have here := serve_here pool q
  rw [reply] at granted
  obtain ⟨p, ok⟩ := (success_respond _).mp granted
  rw [ok] at reply here
  exact ⟨p, ok, congrArg ResponseWrapperImpl.resource reply, here⟩

/-- All that a granted request can have done at its key. -/
theorem granted_here (granted : Success (serve pool q).1) :
    ∃ result, Granted q (pool q.key) result ((serve pool q).2 q.key) := by
  obtain ⟨p, ok, -, left⟩ := granted_outcome granted
  rw [left]
  exact ⟨p.1, granted_of_ok ok⟩

end OneRequest

def cellOf : Option (ResourceImpl δ) → Cell δ (Option Bytes)
  | none => .absent
  | some r => if r.reserved = true then .held r.data r.transactionId else .free r.data

theorem cellOf_reserved {r : ResourceImpl δ} (held : r.reserved = true) :
    cellOf (some r) = .held r.data r.transactionId := if_pos held

theorem cellOf_free {r : ResourceImpl δ} (free : r.reserved = false) :
    cellOf (some r) = .free r.data := if_neg (by simp [free])

@[simp] theorem cellOf_eq_absent (entry : Option (ResourceImpl δ)) :
    cellOf entry = .absent ↔ entry = none := by
  cases entry with
  | none => simp [cellOf]
  | some r => cases h : r.reserved <;> simp [cellOf, h]

theorem cellOf_value (entry : Option (ResourceImpl δ)) :
    (cellOf entry).value? = entry.map ResourceImpl.data := by
  cases entry with
  | none => rfl
  | some r => cases h : r.reserved <;> simp [cellOf, h, Cell.value?]

/-- The cell request of a server request. A `GET` whose own resource comes in
reserved cannot create an entry: its `reserve` throws. -/
def op (q : ResourceManager.Request δ) : ReservedCell.Request δ (Option Bytes) :=
  if q.action = IResourceHolder.get then
    .get q.transactionId (if q.resource.reserved = true then none else some q.data)
  else if q.action = IResourceHolder.put then .put q.transactionId q.data
  else if q.action = IResourceHolder.release then .release q.transactionId
  else if q.action = IResourceHolder.read then .read
  else if q.action = IResourceHolder.delete then .delete
  else .other

section Ops

variable {q : ResourceManager.Request δ}

theorem op_get (action : q.action = IResourceHolder.get) :
    op q = .get q.transactionId (if q.resource.reserved = true then none else some q.data) := by
  rw [op, if_pos action]

theorem op_put (action : q.action = IResourceHolder.put) :
    op q = .put q.transactionId q.data := by
  rw [op, action, if_neg (by decide), if_pos rfl]

theorem op_release (action : q.action = IResourceHolder.release) :
    op q = .release q.transactionId := by
  rw [op, action, if_neg (by decide), if_neg (by decide), if_pos rfl]

theorem op_read (action : q.action = IResourceHolder.read) : op q = .read := by
  rw [op, action, if_neg (by decide), if_neg (by decide), if_neg (by decide), if_pos rfl]

theorem op_delete (action : q.action = IResourceHolder.delete) : op q = .delete := by
  rw [op, action, if_neg (by decide), if_neg (by decide), if_neg (by decide),
    if_neg (by decide), if_pos rfl]

theorem op_unknown (unknown : ¬ Known q.action) : op q = .other := by
  simp only [Known, not_or] at unknown
  obtain ⟨noGet, noPut, noRelease, noRead, noDelete⟩ := unknown
  rw [op, if_neg noGet, if_neg noPut, if_neg noRelease, if_neg noRead, if_neg noDelete]

end Ops

/-- The cell request determines the action and the transaction id. -/
theorem op_cases (q : ResourceManager.Request δ) :
    (q.action = IResourceHolder.get ∧ ∃ offer, op q = .get q.transactionId offer) ∨
    (q.action = IResourceHolder.put ∧ op q = .put q.transactionId q.data) ∨
    (q.action = IResourceHolder.release ∧ op q = .release q.transactionId) ∨
    (q.action = IResourceHolder.read ∧ op q = .read) ∨
    (q.action = IResourceHolder.delete ∧ op q = .delete) ∨
    (¬ Known q.action ∧ op q = .other) := by
  by_cases known : Known q.action
  · rcases known with action | action | action | action | action
    · exact Or.inl ⟨action, _, op_get action⟩
    · exact Or.inr (Or.inl ⟨action, op_put action⟩)
    · exact Or.inr (Or.inr (Or.inl ⟨action, op_release action⟩))
    · exact Or.inr (Or.inr (Or.inr (Or.inl ⟨action, op_read action⟩)))
    · exact Or.inr (Or.inr (Or.inr (Or.inr (Or.inl ⟨action, op_delete action⟩))))
  · exact Or.inr (Or.inr (Or.inr (Or.inr (Or.inr ⟨known, op_unknown known⟩))))

/-- What a cell request says about the request that it stands for. -/
theorem op_means (q : ResourceManager.Request δ) :
    match op q with
    | .get t _ => q.action = IResourceHolder.get ∧ q.transactionId = t
    | .put t w => q.action = IResourceHolder.put ∧ q.transactionId = t ∧ q.data = w
    | .release t => q.action = IResourceHolder.release ∧ q.transactionId = t
    | .read => q.action = IResourceHolder.read
    | .delete => q.action = IResourceHolder.delete
    | .other => ¬ Known q.action := by
  rcases op_cases q with ⟨action, offer, h⟩ | ⟨action, h⟩ | ⟨action, h⟩ | ⟨action, h⟩ |
    ⟨action, h⟩ | ⟨unknown, h⟩
  · rw [h]
    exact ⟨action, rfl⟩
  · rw [h]
    exact ⟨action, rfl, rfl⟩
  · rw [h]
    exact ⟨action, rfl⟩
  · rw [h]
    exact action
  · rw [h]
    exact action
  · rw [h]
    exact unknown

theorem op_eq_get {q : ResourceManager.Request δ} {t : Option Bytes} {offer : Option δ}
    (hop : op q = .get t offer) : q.action = IResourceHolder.get ∧ q.transactionId = t := by
  have means := op_means q
  rwa [hop] at means

theorem op_eq_put {q : ResourceManager.Request δ} {t : Option Bytes} {w : δ}
    (hop : op q = .put t w) : q.action = IResourceHolder.put ∧ q.transactionId = t := by
  have means := op_means q
  rw [hop] at means
  exact ⟨means.1, means.2.1⟩

theorem op_eq_release {q : ResourceManager.Request δ} {t : Option Bytes}
    (hop : op q = .release t) : q.action = IResourceHolder.release ∧ q.transactionId = t := by
  have means := op_means q
  rwa [hop] at means

theorem op_eq_delete {q : ResourceManager.Request δ} (hop : op q = .delete) :
    q.action = IResourceHolder.delete := by
  have means := op_means q
  rwa [hop] at means

def answerOf (response : ResponseWrapperImpl δ) : Answer δ :=
  if Success response then
    match response.resource with
    | some r => .value r.data
    | none => .done
  else .refused

theorem answerOf_granted (response : ResponseWrapperImpl δ) :
    (answerOf response).granted = true ↔ Success response := by
  rw [answerOf]
  split
  · rename_i ok
    refine iff_of_true ?_ ok
    cases response.resource <;> rfl
  · rename_i refused
    exact iff_of_false (by simp [Answer.granted]) refused

/-- What an outcome looks like from the cell. -/
def seen (entry : Option (ResourceImpl δ)) (o : ResourceHolderImpl.Outcome δ) :
    Answer δ × Cell δ (Option Bytes) :=
  (answerOf (respond o), cellOf (nextEntry entry o))

theorem seen_error (entry : Option (ResourceImpl δ)) (message : Bytes) :
    seen entry (.error message) = (.refused, cellOf entry) := by
  rw [seen, answerOf, if_neg (not_success_error message)]
  rfl

theorem seen_ok (entry : Option (ResourceImpl δ))
    (p : Option (ResourceImpl δ) × Option (ResourceImpl δ)) :
    seen entry (.ok p) =
      ((match p.1 with | some r => .value r.data | none => .done), cellOf p.2) := rfl

section Actions

variable (given : ResourceImpl δ) (now : Clock)

theorem get_seen (entry : Option (ResourceImpl δ)) :
    step (cellOf entry) (.get given.transactionId
      (if given.reserved = true then none else some given.data)) =
      seen entry (ResourceHolderImpl.getOutcome given now entry) := by
  cases entry with
  | none =>
    rw [ResourceHolderImpl.getOutcome]
    split
    · rw [seen_error]
      rfl
    · rw [seen_ok]
      rfl
  | some found =>
    rw [ResourceHolderImpl.getOutcome]
    by_cases held : found.reserved = true
    · rw [if_pos held, seen_error, cellOf_reserved held]
      rfl
    · rw [if_neg held, seen_ok, cellOf_free (by simpa using held)]
      rfl

/-- `PUT` and `RELEASE` against a held entry, whatever they write afterwards. -/
theorem unreserve_seen (action : Bytes) (write : ResourceImpl δ → ResourceImpl δ)
    (kept : ∀ r, (write r).reserved = r.reserved) (found : ResourceImpl δ) :
    seen (some found) (ResourceHolderImpl.unreserveOutcome action write given now (some found)) =
      if found.reserved = true ∧ found.transactionId = given.transactionId then
        (.done, .free (write (found.unreserved now)).data)
      else (.refused, cellOf (some found)) := by
  rw [ResourceHolderImpl.unreserveOutcome]
  split
  · rename_i free
    rw [seen_error, if_neg (by simp [free])]
  rename_i held
  split
  · rename_i foreign
    rw [seen_error, if_neg (fun h => foreign h.2)]
  · rename_i own
    have done : (write (found.unreserved now)).reserved = false := by
      rw [kept]
      rfl
    rw [seen_ok, cellOf_free done, if_pos ⟨by simpa using held, by simpa using own⟩]

theorem put_seen (entry : Option (ResourceImpl δ)) :
    step (cellOf entry) (.put given.transactionId given.data) =
      seen entry (ResourceHolderImpl.putOutcome given now entry) := by
  cases entry with
  | none => exact (seen_error none _).symm
  | some found =>
    rw [ResourceHolderImpl.putOutcome, unreserve_seen given now _ _ (by intro r; rfl)]
    by_cases held : found.reserved = true
    · rw [cellOf_reserved held]
      by_cases own : found.transactionId = given.transactionId
      · simp [step, held, own]
      · simp [step, own]
    · rw [cellOf_free (by simpa using held), if_neg (fun h => held h.1)]
      rfl

theorem release_seen (entry : Option (ResourceImpl δ)) :
    step (cellOf entry) (.release given.transactionId) =
      seen entry (ResourceHolderImpl.releaseOutcome given now entry) := by
  cases entry with
  | none => exact (seen_error none _).symm
  | some found =>
    rw [ResourceHolderImpl.releaseOutcome, unreserve_seen given now _ _ (by intro r; rfl)]
    by_cases held : found.reserved = true
    · rw [cellOf_reserved held]
      by_cases own : found.transactionId = given.transactionId
      · simp [step, held, own, ResourceImpl.unreserved]
      · simp [step, own]
    · rw [cellOf_free (by simpa using held), if_neg (fun h => held h.1)]
      rfl

theorem read_seen (entry : Option (ResourceImpl δ)) :
    step (cellOf entry) .read = seen entry (ResourceHolderImpl.readOutcome entry) := by
  cases entry with
  | none => exact (seen_error none _).symm
  | some found =>
    rw [ResourceHolderImpl.readOutcome, seen_ok]
    cases h : found.reserved <;> simp [cellOf, h, step]

theorem delete_seen (entry : Option (ResourceImpl δ)) :
    step (cellOf entry) .delete = seen entry (ResourceHolderImpl.deleteOutcome entry) := by
  cases entry with
  | none => exact (seen_error none _).symm
  | some found =>
    rw [ResourceHolderImpl.deleteOutcome, seen_ok]
    cases h : found.reserved <;> simp [cellOf, h, step]

end Actions

/-- One action of the holder is one step of the cell. -/
theorem op_seen (q : ResourceManager.Request δ) (entry : Option (ResourceImpl δ)) :
    step (cellOf entry) (op q) = seen entry (q.outcome entry) := by
  rw [op, ResourceManager.Request.outcome, ResourceHolderImpl.outcome]
  split
  · exact get_seen q.resource q.clock entry
  split
  · exact put_seen q.resource q.clock entry
  split
  · exact release_seen q.resource q.clock entry
  split
  · exact read_seen entry
  split
  · exact delete_seen entry
  · rw [step_other]
    rfl

/-- The server follows the cell of each key. -/
def atKey (k : Bytes) : Simulation (serve (δ := δ)) (step (V := δ) (T := Option Bytes)) where
  abs pool := cellOf (pool k)
  inp q := if q.key = k then some (op q) else none
  out _ := answerOf
  quiet pool q other := by
    have hne : q.key ≠ k := by
      intro h
      simp [h] at other
    rw [serve_elsewhere pool q hne]
  follows pool q j here := by
    split at here
    · rename_i hk
      subst hk
      cases here
      rw [serve_reply, serve_here]
      exact op_seen q (pool q.key)
    · cases here

section Histories

abbrev ServerEvent (δ : Type) :=
  Event (Pool δ) (ResourceManager.Request δ) (ResponseWrapperImpl δ)

/-- Every event of a run is one turn of the server. -/
theorem event_served {pool : Pool δ} {qs : List (ResourceManager.Request δ)} {e : ServerEvent δ}
    (member : e ∈ trace serve pool qs) :
    e.reply = (serve e.before e.input).1 ∧ e.after = (serve e.before e.input).2 := by
  obtain ⟨qs₁, qs₂, -, he⟩ := mem_trace serve member
  rw [he]
  exact ⟨rfl, rfl⟩

/-- The part of a history that concerns one key. -/
def eventsFor (k : Bytes) (h : List (ServerEvent δ)) : List (ServerEvent δ) :=
  h.filter fun e => e.input.key = k

theorem mem_eventsFor {k : Bytes} {h : List (ServerEvent δ)} {e : ServerEvent δ} :
    e ∈ eventsFor k h ↔ e ∈ h ∧ e.input.key = k := by
  simp [eventsFor]

/-- An event for the key, as the key's cell sees it. -/
def cellEvent (k : Bytes) (e : ServerEvent δ) : CellEvent δ (Option Bytes) :=
  ⟨cellOf (e.before k), op e.input, answerOf e.reply, cellOf (e.after k)⟩

theorem eventsFor_seen (k : Bytes) (h : List (ServerEvent δ)) :
    (eventsFor k h).map (cellEvent k) = h.filterMap (atKey k).see := by
  induction h with
  | nil => rfl
  | cons e h ih =>
    by_cases here : e.input.key = k
    · have hsee : (atKey k).see e = some (cellEvent k e) := by
        simp only [Simulation.see, atKey, if_pos here]
        rfl
      rw [eventsFor, List.filter_cons_of_pos (by simpa using here), List.map_cons,
        List.filterMap_cons_some hsee, ← ih]
      rfl
    · have hsee : (atKey k).see e = none := by
        simp only [Simulation.see, atKey, if_neg here]
        rfl
      rw [eventsFor, List.filter_cons_of_neg (by simpa using here),
        List.filterMap_cons_none hsee, ← ih]
      rfl

/-- The requests for one key, as requests to its cell. -/
def opsFor (k : Bytes) (qs : List (ResourceManager.Request δ)) :
    List (ReservedCell.Request δ (Option Bytes)) :=
  qs.filterMap (atKey k).inp

theorem cell_trace (k : Bytes) (pool : Pool δ) (qs : List (ResourceManager.Request δ)) :
    (eventsFor k (trace serve pool qs)).map (cellEvent k) =
      trace step (cellOf (pool k)) (opsFor k qs) :=
  (eventsFor_seen k _).trans ((atKey k).trace_eq pool qs)

/-- Every event of a cell's run is the view of an event of the server's run. -/
theorem mem_cell_trace {k : Bytes} {pool : Pool δ} {qs : List (ResourceManager.Request δ)}
    {e' : CellEvent δ (Option Bytes)}
    (member : e' ∈ trace step (cellOf (pool k)) (opsFor k qs)) :
    ∃ e ∈ trace serve pool qs, e.input.key = k ∧ e' = cellEvent k e := by
  rw [← cell_trace] at member
  obtain ⟨e, he, rfl⟩ := List.mem_map.mp member
  have h := mem_eventsFor.mp he
  exact ⟨e, h.1, h.2, rfl⟩

theorem cell_final (k : Bytes) (pool : Pool δ) (qs : List (ResourceManager.Request δ)) :
    cellOf (final serve pool qs k) = final step (cellOf (pool k)) (opsFor k qs) :=
  (atKey k).final_eq pool qs

end Histories

/-- A request for one fixed variable with a numeric value, on a fixed clock. -/
def sampleRequest (action : Bytes) (uniqid : String) (data : Nat) : ResourceManager.Request Nat :=
  Request.build action ⟨ascii "anyem.com", ascii "anyemNameSpace", ascii "a"⟩ (ascii uniqid) data
    ⟨ascii "2015-06-01", ascii "10:00:00:000000"⟩

end PoolCells
