import Anyem.Reservations

/-!
# What the code of a reply tells the client

`SUCCESS` means that the request was carried out, for the five actions that the
`switch` knows. An unknown action is logged as an error and answered `SUCCESS`
all the same. `ERROR` comes with a message and no resource, and leaves the pool
as it was, and so does a `READ`: such requests can be left out of a run.
-/

namespace Answers

open ReplyMachine Resource ResourceHolder ResourceManager PoolCells Reservations

variable {δ : Type}

/-- The operation that the request asked for took place in this event. -/
structure CarriedOut (e : ServerEvent δ) : Prop where
  get : e.input.action = IResourceHolder.get →
    ∃ r, e.after e.input.key = some r ∧ r.reserved = true ∧
      r.transactionId = e.input.transactionId ∧ e.reply.resource = some r
  put : e.input.action = IResourceHolder.put →
    ReservedBy e.before e.input.key e.input.transactionId ∧
      ∃ r, e.after e.input.key = some r ∧ r.reserved = false ∧ r.data = e.input.data
  release : e.input.action = IResourceHolder.release →
    ReservedBy e.before e.input.key e.input.transactionId ∧
      ∃ r found, e.before e.input.key = some found ∧ e.after e.input.key = some r ∧
        r.reserved = false ∧ r.data = found.data
  read : e.input.action = IResourceHolder.read →
    ∃ r, e.before e.input.key = some r ∧ e.reply.resource = some r
  delete : e.input.action = IResourceHolder.delete →
    e.before e.input.key ≠ none ∧ e.after e.input.key = none
  known : Known e.input.action

/-- The reply code of the event can be trusted. -/
def Trusted (e : ServerEvent δ) : Prop :=
  (Success e.reply → CarriedOut e) ∧
    (Refused e.reply → (∃ message, e.reply.errorMessage = some message ∧ message ≠ []) ∧
      e.reply.resource = none)

section Messages

theorem alreadyReserved_ne_nil (holder : Option Bytes) :
    ResourceImpl.alreadyReserved holder ≠ [] := by
  intro empty
  simp only [ResourceImpl.alreadyReserved, List.append_eq_nil_iff] at empty
  exact absurd empty.1.1 (by decide)

theorem anotherTransaction_ne_nil (holder given : Option Bytes) :
    ResourceImpl.anotherTransaction holder given ≠ [] := by
  intro empty
  simp only [ResourceImpl.anotherTransaction, List.append_eq_nil_iff] at empty
  exact absurd empty.1.1.1.1.1.1 (by decide)

theorem inexistant_ne_nil (action : Bytes) : ResourceHolderImpl.inexistant action ≠ [] := by
  intro empty
  simp only [ResourceHolderImpl.inexistant, List.append_eq_nil_iff] at empty
  exact absurd empty.1.1 (by decide)

variable {given : ResourceImpl δ} {now : Clock} {entry : Option (ResourceImpl δ)}
  {message : Bytes}

theorem getOutcome_message
    (threw : ResourceHolderImpl.getOutcome given now entry = .error message) : message ≠ [] := by
  cases entry with
  | none =>
    rw [ResourceHolderImpl.getOutcome] at threw
    split at threw
    · cases threw
      exact alreadyReserved_ne_nil _
    · cases threw
  | some found =>
    rw [ResourceHolderImpl.getOutcome] at threw
    split at threw
    · cases threw
      exact alreadyReserved_ne_nil _
    · cases threw

theorem unreserveOutcome_message {action : Bytes} {write : ResourceImpl δ → ResourceImpl δ}
    (threw : ResourceHolderImpl.unreserveOutcome action write given now entry =
      .error message) : message ≠ [] := by
  cases entry with
  | none =>
    cases threw
    exact inexistant_ne_nil _
  | some found =>
    rw [ResourceHolderImpl.unreserveOutcome] at threw
    split at threw
    · cases threw
      decide
    split at threw
    · cases threw
      exact anotherTransaction_ne_nil _ _
    · cases threw

/-- Every exception that an action throws has a text. -/
theorem outcome_message {q : Request δ} (threw : q.outcome entry = .error message) :
    message ≠ [] := by
  by_cases known : Known q.action
  · rcases known with action | action | action | action | action
    · rw [outcome_get entry action] at threw
      exact getOutcome_message threw
    · rw [outcome_put entry action] at threw
      exact unreserveOutcome_message threw
    · rw [outcome_release entry action] at threw
      exact unreserveOutcome_message threw
    · rw [outcome_read entry action] at threw
      cases entry with
      | none =>
        cases threw
        decide
      | some found => cases threw
    · rw [outcome_delete entry action] at threw
      cases entry with
      | none =>
        cases threw
        exact inexistant_ne_nil _
      | some found => cases threw
  · rw [outcome_unknown entry known] at threw
    cases threw

end Messages

section OneRequest

variable (pool : Pool δ) (q : Request δ)

theorem refused_reply (refused : Refused (serve pool q).1) :
    (∃ message, (serve pool q).1.errorMessage = some message ∧ message ≠ []) ∧
      (serve pool q).1.resource = none := by
  have failed := (serve_refused_iff pool q).mp refused
  obtain ⟨message, threw, reply⟩ := refused_outcome pool q failed
  rw [reply]
  exact ⟨⟨message, rfl, outcome_message threw⟩, rfl⟩

theorem success_carriedOut (known : Known q.action) (granted : Success (serve pool q).1) :
    CarriedOut (event serve pool q) where
  get action := by
    obtain ⟨r, -, -, reply, left⟩ := get_granted action granted
    exact ⟨_, left, rfl, rfl, reply⟩
  put action := by
    obtain ⟨r, found, held, own, -, left⟩ := put_granted action granted
    exact ⟨⟨r, found, held, own⟩, _, left, rfl, rfl⟩
  release action := by
    obtain ⟨r, found, held, own, -, left⟩ := release_granted action granted
    exact ⟨⟨r, found, held, own⟩, _, r, found, left, rfl, rfl⟩
  read action := by
    obtain ⟨r, found, reply, -⟩ := read_granted action granted
    exact ⟨r, found, reply⟩
  delete action := by
    obtain ⟨⟨r, found⟩, -, left⟩ := delete_granted action granted
    have present : pool q.key ≠ none := by
      intro missing
      cases missing.symm.trans found
    exact ⟨present, left⟩
  known := known

/-- The default branch of the `switch` only logs, so `manage` answers `SUCCESS`. -/
theorem unknown_granted (unknown : ¬ Known q.action) : Success (serve pool q).1 := by
  rw [serve_reply, success_respond, outcome_unknown _ unknown]
  exact ⟨_, rfl⟩

theorem trusted_iff_known : Trusted (event serve pool q) ↔ Known q.action := by
  constructor
  · intro trusted
    by_contra unknown
    exact unknown (trusted.1 (unknown_granted pool q unknown)).known
  · intro known
    exact ⟨success_carriedOut pool q known, refused_reply pool q⟩

end OneRequest

/-- The replies of a run can all be trusted exactly when every request of the
run has one of the five actions; and that is decided at each request alone. -/
theorem success_trusted_iff_known_actions :
    (∀ (pool : Pool δ) (q : Request δ), Reachable pool →
      (Trusted (event serve pool q) ↔ Known q.action)) ∧
    ∀ qs : List (Request δ),
      (∀ e ∈ trace serve emptyPool qs, Trusted e) ↔ ∀ q ∈ qs, Known q.action := by
  refine ⟨fun pool q _ => trusted_iff_known pool q, ?_⟩
  intro qs
  constructor
  · intro trusted q member
    obtain ⟨qs₁, qs₂, rfl⟩ := List.append_of_mem member
    have served : event serve (final serve emptyPool qs₁) q ∈
        trace serve emptyPool (qs₁ ++ q :: qs₂) := by
      rw [trace_append]
      exact List.mem_append_right _ List.mem_cons_self
    exact (trusted_iff_known _ q).mp (trusted _ served)
  · intro known e member
    obtain ⟨qs₁, qs₂, hqs, he⟩ := mem_trace serve member
    have action : Known e.input.action := known _ (by simp [hqs])
    rw [he]
    exact (trusted_iff_known _ e.input).mpr action

/-- An action that does not exist is answered `SUCCESS` by the empty server. -/
theorem unknown_action_answered_success :
    ¬ ∀ (pool : Pool Nat) (q : Request Nat), Reachable pool → Trusted (event serve pool q) := by
  intro trusts
  have trusted := trusts emptyPool (sampleRequest (ascii "FOO") "first" 5) ⟨[], rfl⟩
  have known : Known (ascii "FOO") := (trusted.1 (by decide)).known
  exact absurd known (by decide)

section Invisibility

theorem read_unchanged {pool : Pool δ} {q : Request δ}
    (action : q.action = IResourceHolder.read) : (serve pool q).2 = pool := by
  apply serve_unchanged
  rw [outcome_read _ action]
  cases pool q.key with
  | none => rfl
  | some r => rfl

/-- A request that was answered `ERROR`, or a `READ`. -/
def Invisible (e : ServerEvent δ) : Prop :=
  Refused e.reply ∨ e.input.action = IResourceHolder.read

theorem invisible_unchanged {pool : Pool δ} {qs : List (Request δ)} {e : ServerEvent δ}
    (member : e ∈ trace serve pool qs) (invisible : Invisible e) : e.after = e.before := by
  obtain ⟨reply, after⟩ := event_served member
  rw [after]
  rcases invisible with refused | action
  · rw [reply, serve_refused_iff] at refused
    exact refused_serve _ _ refused
  · exact read_unchanged action

/-- Refused requests and reads leave the whole pool as it was, and any of them
can be left out of a run: the other requests get the replies they got, and the
last pool is the same. A mark is `true` where a request stays. -/
theorem invisible_requests_erasable (qs : List (Request δ)) :
    (∀ e ∈ trace serve emptyPool qs, Invisible e → e.after = e.before) ∧
    ∀ marks : List Bool, marks.length = qs.length →
      (∀ p ∈ marks.zip (trace serve emptyPool qs), p.1 = false → Invisible p.2) →
      replies serve emptyPool (select marks qs) = select marks (replies serve emptyPool qs) ∧
        final serve emptyPool (select marks qs) = final serve emptyPool qs := by
  constructor
  · intro e member invisible
    exact invisible_unchanged member invisible
  · intro marks enough dropped
    have silent : ∀ p ∈ marks.zip (trace serve emptyPool qs), p.1 = false →
        p.2.after = p.2.before := by
      intro p member unmarked
      have inTrace : p.2 ∈ trace serve emptyPool qs := (List.of_mem_zip member).2
      exact invisible_unchanged inTrace (dropped p member unmarked)
    obtain ⟨htrace, hfinal⟩ := erase_silent serve marks emptyPool qs enough silent
    refine ⟨?_, hfinal⟩
    rw [replies, htrace, replies, select_map]

end Invisibility

end Answers
