import Anyem.RetriedGet

/-!
# A release or a delete that is tried again

Every attempt of a `release` sends the same resource. When its transaction does
not hold the variable at the first attempt it never will, so the call is
decided there, and the other attempts are refused for nothing. A `delete` asks
for no transaction: it is refused while there is no variable, and deletes the
first one that it finds, whoever created or reserved it meanwhile.
-/

namespace RetriedClosing

open ReplyMachine Resource ResourceHolder ResourceManager PoolCells Reservations Client
  PhpValues RetryLoop RetriedGet

variable {δ : Type}

/-- The attempts of a call, and what the server takes of other clients right
before each of them, from the pool that the call finds. -/
structure Attempts (δ : Type) where
  found : Pool (Option δ)
  others : ℕ → List (Request (Option δ))
  request : ℕ → Request (Option δ)
  uniqid : ℕ → Bytes

namespace Attempts

variable (w : Attempts δ)

/-- The pool right before an attempt. -/
def pool : ℕ → Pool (Option δ)
  | 0 => final serve w.found (w.others 0)
  | n + 1 => final serve (serve (pool n) (w.request n)).2 (w.others (n + 1))

/-- The pool right after an attempt. -/
def after (n : ℕ) : Pool (Option δ) := (serve (w.pool n) (w.request n)).2

def turn (n : ℕ) : Turn δ where
  uniqid := w.uniqid n
  response := (serve (w.pool n) (w.request n)).1
  answered := by
    rw [serve_refused_iff]
    exact Classical.em _

def call (anyem : AnyemCall δ) (php : Php) (maxAttempt : ℤ) (delay : Delay php) : ActionCall δ :=
  ⟨php, anyem, .number (.int maxAttempt), delay.value, w.turn⟩

/-- The wrapper of an attempt. -/
def wrapper (n : ℕ) : ResourceWrapper (Option δ) :=
  ⟨some (w.request n).resource, (w.request n).action⟩

/-- The attempts are requests that the call sends, from any client that is as
`Keeps` says. -/
def Sent (anyem : AnyemCall δ) (Keeps : ClientImpl δ → Prop) : Prop :=
  ∀ n this, Keeps this → ∃ this', anyem.call.run (w.uniqid n) this = .ok (w.wrapper n) this' ∧
    Keeps this'

section Ending

variable {w : Attempts δ} {anyem : AnyemCall δ} (php : Php) (maxAttempt : ℤ) (delay : Delay php)

/-- The passes send the requests of their attempts one after the other, and the
last one leaves the client. -/
theorem passes_sent {Keeps : ClientImpl δ → Prop} (sent : w.Sent anyem Keeps) {fuel i : ℕ}
    {ma : Value} {this : ClientImpl δ} {o : Outcome δ} (keeps : Keeps this)
    (ran : passes (w.call anyem php maxAttempt delay) fuel i ma this = some o) :
    wrappers o.effects = (List.range (requests o.effects)).map (fun j => w.wrapper (i + j)) ∧
      ∃ n before, requests o.effects = n + 1 ∧ Keeps before ∧
        anyem.call.run (w.uniqid (i + n)) before = .ok (w.wrapper (i + n)) o.client := by
  induction fuel generalizing i ma this o with
  | zero => cases ran
  | succ fuel ih =>
    obtain ⟨wrapper, this', ran₁, more⟩ := passes_cases ran
    obtain ⟨next, ran₂, keeps'⟩ := sent i this keeps
    cases ran₁.symm.trans ran₂
    rcases more with ⟨rest, ran', rfl⟩ | ⟨effects, ending, slept, rfl⟩
    · obtain ⟨were, n, before, count, kept, left⟩ := ih keeps' ran'
      have shift : ∀ j, i + (j + 1) = i + 1 + j := fun j => by omega
      constructor
      · change w.wrapper i :: wrappers rest.effects = _
        rw [were]
        change _ = (List.range (requests rest.effects + 1)).map _
        rw [List.range_succ_eq_map, List.map_cons, List.map_map]
        refine congrArg _ (List.map_congr_left ?_)
        intro j _
        rw [Function.comp_apply, Nat.succ_eq_add_one, shift j]
      · refine ⟨n + 1, before, congrArg (· + 1) count, kept, ?_⟩
        rw [shift n]
        exact left
    · obtain ⟨count, were⟩ := sleeps_only slept
      constructor
      · change w.wrapper i :: wrappers effects = (List.range (requests effects + 1)).map _
        rw [count, were]
        rfl
      · exact ⟨0, this, congrArg (· + 1) count, keeps, ran₂⟩

/-- A call ends with its first granted attempt, or throws after all of them. The
client is as the last attempt left it. -/
theorem call_ends {Keeps : ClientImpl δ → Prop} (sent : w.Sent anyem Keeps)
    {this : ClientImpl δ} (keeps : Keeps this) :
    ∃ o n, (∀ fuel > maxAttempt.toNat,
        action (w.call anyem php maxAttempt delay) fuel this = some o) ∧
      wrappers o.effects = (List.range (n + 1)).map w.wrapper ∧
      (∃ before, Keeps before ∧
        anyem.call.run (w.uniqid n) before = .ok (w.wrapper n) o.client) ∧
      (∀ j < n, w.after j = w.pool j) ∧
      ((n ≤ maxAttempt.toNat ∧ o.ending = .returned (w.turn n).response ∧
          Success (w.turn n).response ∧ ∀ j < n, ¬ Success (w.turn j).response) ∨
        (n = maxAttempt.toNat ∧ w.after n = w.pool n ∧
          o.ending = .thrown (.exception (allAttemptsUsed php (.number (.int maxAttempt)))) ∧
          ∀ j ≤ n, ¬ Success (w.turn j).response)) := by
  let a := w.call anyem php maxAttempt delay
  have sleeps : a.delayAttempt.canSleep a.php = true := delay.valid
  have leaves : ∀ j, ¬ Success (w.turn j).response → w.after j = w.pool j :=
    fun j refused => refused_serve _ _ refused
  have were : ∀ {o : Outcome δ} {n : ℕ}, action a (maxAttempt.toNat + 1) this = some o →
      requests o.effects = n + 1 → wrappers o.effects = (List.range (n + 1)).map w.wrapper ∧
        ∃ before, Keeps before ∧
          anyem.call.run (w.uniqid n) before = .ok (w.wrapper n) o.client := by
    intro o n ran count
    obtain ⟨sentAll, m, before, count', kept, left⟩ :=
      passes_sent php maxAttempt delay sent keeps ran
    have same : n = m := by omega
    subst same
    simp only [count, Nat.zero_add] at sentAll left
    exact ⟨sentAll, before, kept, left⟩
  rcases first_success_or_refused a.turn maxAttempt.toNat with found | refused
  · obtain ⟨n, within, success, before⟩ := found
    obtain ⟨o, ran, count, ending, -⟩ :=
      action_returns (a := a) this rfl sleeps within before success
    have unsuccessful : ∀ j < n, ¬ Success (w.turn j).response :=
      fun j less => (Turn.refused_iff _).mp (before j less)
    obtain ⟨sentAll, left⟩ := were (ran _ (Nat.lt_succ_self _)) count
    exact ⟨o, n, ran, sentAll, left,
      fun j less => leaves j (unsuccessful j less), Or.inl ⟨within, ending, success, unsuccessful⟩⟩
  · obtain ⟨o, ran, count, ending⟩ := action_throws (a := a) this rfl sleeps refused
    have unsuccessful : ∀ j ≤ maxAttempt.toNat, ¬ Success (w.turn j).response :=
      fun j less => (Turn.refused_iff _).mp (refused j less)
    obtain ⟨sentAll, left⟩ := were (ran _ (Nat.lt_succ_self _)) count
    exact ⟨o, _, ran, sentAll, left,
      fun j less => leaves j (unsuccessful j less.le),
      Or.inr ⟨rfl, leaves _ (unsuccessful _ le_rfl), ending, unsuccessful⟩⟩

end Ending

end Attempts

section Release

/-- A reservation was there before, or is the one of a `GET`. -/
theorem reservedBy_came {pool : Pool δ} {q : Request δ} {k : Bytes} {t : Option Bytes}
    (held : ReservedBy (serve pool q).2 k t) :
    ReservedBy pool k t ∨ (q.action = IResourceHolder.get ∧ q.transactionId = t) := by
  by_cases here : q.key = k
  · subst here
    obtain ⟨v, cell⟩ := reservedBy_iff_held.mp held
    have steps : (ReservedCell.step (cellOf (pool q.key)) (op q)).2 =
        cellOf ((serve pool q).2 q.key) := by
      rw [op_seen, serve_here]
      rfl
    rcases ReservedCell.held_came (steps.trans cell) with before | ⟨offer, get⟩
    · exact Or.inl (reservedBy_iff_held.mpr ⟨v, before⟩)
    · exact Or.inr (op_eq_get get)
  · obtain ⟨r, present, reserved⟩ := held
    rw [serve_elsewhere pool q here] at present
    exact Or.inl ⟨r, present, reserved⟩

/-- A transaction that nobody uses takes nothing. -/
theorem not_reservedBy_run {pool : Pool δ} {qs : List (Request δ)} {k : Bytes} {t : Option Bytes}
    (free : ¬ ReservedBy pool k t) (foreign : ∀ q ∈ qs, q.transactionId ≠ t) :
    ¬ ReservedBy (final serve pool qs) k t := by
  induction qs generalizing pool with
  | nil => exact free
  | cons q qs ih =>
    refine ih ?_ fun q' member => foreign q' (List.mem_cons_of_mem q member)
    intro held
    rcases reservedBy_came held with before | ⟨-, own⟩
    · exact free before
    · exact foreign q List.mem_cons_self own

/-- The attempts of a `release` with the resource that the client keeps. -/
def releasing (found : Pool (Option δ)) (others : ℕ → List (Request (Option δ)))
    (uniqid : ℕ → Bytes) (clock : ℕ → Clock) (r : ResourceImpl (Option δ))
    (i : ResourceIdentifierImpl) (identified : r.resourceIdentifier = some i) : Attempts δ where
  found := found
  others := others
  request := fun n => ⟨IResourceHolder.release, r, i, identified, clock n⟩
  uniqid := uniqid

/-- The transaction `t` of a client releases the variable with the first
attempt, when it holds it then. Otherwise, as no other client uses `t`, all
attempts are refused and leave the pool, however many the bound allows. -/
theorem retried_release_decided_at_first (php : Php) (found : Pool (Option δ))
    (others : ℕ → List (Request (Option δ))) (uniqid : ℕ → Bytes) (clock : ℕ → Clock)
    (maxAttempt : ℤ) (delay : Delay php) (this : ClientImpl δ) (r : ResourceImpl (Option δ))
    (i : ResourceIdentifierImpl) (kept : this.resource = some r)
    (identified : r.resourceIdentifier = some i)
    (foreign : ∀ n, ∀ q ∈ others n, q.transactionId ≠ r.transactionId) :
    let w := releasing found others uniqid clock r i identified
    ∃ o n, (∀ fuel > maxAttempt.toNat,
        action (w.call .release php maxAttempt delay) fuel this = some o) ∧
      wrappers o.effects = (List.range (n + 1)).map (fun _ => ⟨some r, IResourceHolder.release⟩) ∧
      ((ReservedBy (w.pool 0) (mergedKey i) r.transactionId ∧ n = 0 ∧
          o.ending = .returned (w.turn 0).response ∧
          ∃ e, w.pool 0 (mergedKey i) = some e ∧
            w.after 0 (mergedKey i) = some (e.unreserved (clock 0))) ∨
        (¬ ReservedBy (w.pool 0) (mergedKey i) r.transactionId ∧ n = maxAttempt.toNat ∧
          o.ending = .thrown (.exception (allAttemptsUsed php (.number (.int maxAttempt)))) ∧
          ∀ j ≤ n, w.after j = w.pool j)) := by
  intro w
  have sent : w.Sent .release fun this => this.resource = some r := by
    intro n this kept
    refine ⟨this, ?_, kept⟩
    cases this
    cases kept
    rfl
  have closing : ∀ n, Closing (w.request n).action := fun n => Or.inr rfl
  obtain ⟨o, n, ran, were, -, unchanged, ends⟩ :=
    Attempts.call_ends php maxAttempt delay sent kept
  by_cases held : ReservedBy (w.pool 0) (mergedKey i) r.transactionId
  · have success : Success (w.turn 0).response := closing_granted held (closing 0)
    have first : n = 0 := by
      by_contra later
      rcases ends with ⟨-, -, -, before⟩ | ⟨-, -, -, before⟩
      · exact before 0 (by omega) success
      · exact before 0 (by omega) success
    subst first
    rcases ends with ⟨-, ending, -⟩ | ⟨-, -, -, before⟩
    · obtain ⟨e, present, -, -, -, left⟩ := release_granted (q := w.request 0) rfl success
      exact ⟨o, 0, ran, were, Or.inl ⟨held, rfl, ending, e, present, left⟩⟩
    · exact False.elim (before 0 le_rfl success)
  · have never : ∀ j, ¬ ReservedBy (w.pool j) (mergedKey i) r.transactionId := by
      intro j
      induction j with
      | zero => exact held
      | succ j ih =>
        refine not_reservedBy_run ?_ (foreign (j + 1))
        intro taken
        rcases reservedBy_came taken with before | ⟨action, -⟩
        · exact ih before
        · exact closing_ne_get (closing j) action
    have refused : ∀ j, ¬ Success (w.turn j).response :=
      fun j success => never j (closing_reserved (closing j) success)
    rcases ends with ⟨-, -, success, -⟩ | ⟨last, left, ending, -⟩
    · exact False.elim (refused n success)
    · refine ⟨o, n, ran, were, Or.inr ⟨held, last, ending, ?_⟩⟩
      intro j within
      rcases Nat.lt_or_eq_of_le within with less | rfl
      · exact unchanged j less
      · exact left

/-- Another client deletes what the client reserved, and makes it anew: the
`release` is refused each time, and the new reservation stays. -/
theorem displaced_release_throws :
    let i : ResourceIdentifierImpl := ⟨ascii "a", ascii "b", ascii "c"⟩
    let now : Clock := ⟨[], []⟩
    let reserves : Request (Option ℕ) :=
      Request.build IResourceHolder.get i (ascii "first") (some 5) now
    let deletes : Request (Option ℕ) :=
      Request.build IResourceHolder.delete i (ascii "second") none now
    let anew : Request (Option ℕ) :=
      Request.build IResourceHolder.get i (ascii "third") (some 7) now
    let w := releasing (serve emptyPool reserves).2 (fun n => if n = 0 then [deletes, anew] else [])
      (fun _ => []) (fun _ => now) reserves.resource i rfl
    ∃ o, (∃ ex, o.ending = .thrown ex) ∧ (∀ fuel > 2,
      action (w.call .release ⟨true, true, fun _ => []⟩ 2 ⟨.number (.int 0), by decide⟩) fuel
        ⟨i, some reserves.resource⟩ = some o) := by
  intro i now reserves deletes anew w
  have foreign : ∀ n, ∀ q ∈ (if n = 0 then [deletes, anew] else []),
      q.transactionId ≠ reserves.resource.transactionId := by
    intro n q member
    split at member
    · rcases List.mem_pair.mp member with rfl | rfl
      · decide
      · decide
    · cases member
  obtain ⟨o, n, ran, -, held | refused⟩ := retried_release_decided_at_first
    ⟨true, true, fun _ => []⟩ (serve emptyPool reserves).2 _ (fun _ => []) (fun _ => now) 2
    ⟨.number (.int 0), by decide⟩ ⟨i, some reserves.resource⟩ reserves.resource i rfl rfl foreign
  · obtain ⟨⟨r, present, -, own⟩, -⟩ := held
    have there : (w.pool 0 (mergedKey i)).map ResourceImpl.transactionId =
        some (some (ascii "third")) := by decide
    rw [show w.pool 0 (mergedKey i) = some r from present, Option.map_some, own] at there
    exact absurd there (by decide)
  · exact ⟨o, ⟨_, refused.2.2.1⟩, ran⟩

end Release

section Delete

theorem delete_success_iff {pool : Pool δ} {q : Request δ}
    (action : q.action = IResourceHolder.delete) :
    Success (serve pool q).1 ↔ pool q.key ≠ none := by
  rw [serve_reply, success_respond, outcome_delete _ action]
  cases pool q.key with
  | none =>
    refine iff_of_false ?_ fun here => here rfl
    rintro ⟨p, same⟩
    cases same
  | some r => exact iff_of_true ⟨_, rfl⟩ (by simp)

theorem delete_removes {pool : Pool δ} {q : Request δ} (action : q.action = IResourceHolder.delete)
    (success : Success (serve pool q).1) :
    (serve pool q).2 = Function.update pool q.key none := by
  obtain ⟨-, -, left⟩ := delete_granted action success
  rw [← left, serve_eq]
  simp

/-- The attempts of a `delete`, each with a new resource. -/
def deleting (found : Pool (Option δ)) (others : ℕ → List (Request (Option δ)))
    (uniqid : ℕ → Bytes) (clock : ℕ → Clock) (i : ResourceIdentifierImpl) : Attempts δ where
  found := found
  others := others
  request := fun n => Request.build IResourceHolder.delete i (uniqid n) none (clock n)
  uniqid := uniqid

/-- A `delete` deletes once at most: with the first attempt that finds the
variable, whoever made or reserved it since the call began. It throws when no
attempt finds it, and leaves everything else. -/
theorem retried_delete_waits_for_variable (php : Php) (found : Pool (Option δ))
    (others : ℕ → List (Request (Option δ))) (uniqid : ℕ → Bytes) (clock : ℕ → Clock)
    (maxAttempt : ℤ) (delay : Delay php) (this : ClientImpl δ) :
    let w := deleting found others uniqid clock this.resourceIdentifier
    let k := mergedKey this.resourceIdentifier
    ∃ o n, (∀ fuel > maxAttempt.toNat,
        action (w.call .delete php maxAttempt delay) fuel this = some o) ∧
      wrappers o.effects = (List.range (n + 1)).map w.wrapper ∧
      (∀ j < n, w.pool j k = none ∧ w.after j = w.pool j) ∧
      ((n ≤ maxAttempt.toNat ∧ o.ending = .returned (w.turn n).response ∧ w.pool n k ≠ none ∧
          w.after n = Function.update (w.pool n) k none) ∨
        (n = maxAttempt.toNat ∧
          o.ending = .thrown (.exception (allAttemptsUsed php (.number (.int maxAttempt)))) ∧
          w.pool n k = none ∧ w.after n = w.pool n)) := by
  intro w k
  have sent : w.Sent .delete fun own => own.resourceIdentifier = this.resourceIdentifier := by
    intro n own named
    obtain ⟨identifier, resource⟩ := own
    cases named
    exact ⟨_, rfl, rfl⟩
  have deletes : ∀ j, (w.request j).action = IResourceHolder.delete := fun _ => rfl
  have missing : ∀ j, ¬ Success (w.turn j).response → w.pool j k = none := by
    intro j refused
    by_contra present
    exact refused ((delete_success_iff (deletes j)).mpr present)
  obtain ⟨o, n, ran, were, -, unchanged, ends⟩ :=
    Attempts.call_ends php maxAttempt delay sent rfl
  refine ⟨o, n, ran, were, ?_, ?_⟩
  · intro j less
    refine ⟨missing j ?_, unchanged j less⟩
    rcases ends with ⟨-, -, -, before⟩ | ⟨-, -, -, before⟩
    · exact before j less
    · exact before j less.le
  · rcases ends with ⟨within, ending, success, -⟩ | ⟨last, left, ending, before⟩
    · exact Or.inl ⟨within, ending, (delete_success_iff (deletes n)).mp success,
        delete_removes (deletes n) success⟩
    · exact Or.inr ⟨last, ending, missing n (before n le_rfl), left⟩

end Delete

end RetriedClosing
