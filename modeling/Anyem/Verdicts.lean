import Anyem.LockHistory

/-!
# What is answered follows from the lock history

The last granted locking request for a key says how the variable stands:
missing, free, or held by a transaction. From that follows whether the next
request is granted, and the message it is refused with; so the law of the lock
history is complete. The messages and the resources that are handed out name
the holder, and whoever knows its transaction id can take its place.
-/

namespace Verdicts

open ReplyMachine Resource ResourceHolder ResourceManager PoolCells Reservations LockHistory

variable {δ : Type}

/-- How the variable was left. -/
inductive Standing where
  | missing
  | free
  | held (holder : Option Bytes)

/-- What a granted locking request leaves behind. -/
def standing : Option (Request δ) → Standing
  | none => .missing
  | some g =>
    if g.action = IResourceHolder.get then .held g.transactionId
    else if g.action = IResourceHolder.delete then .missing
    else .free

/-- The message that a request is refused with, if it is refused. -/
def objection (q : Request δ) : Standing → Option Bytes
  | .missing =>
    if q.action = IResourceHolder.get then
      if q.resource.reserved = true then some (ResourceImpl.alreadyReserved q.transactionId)
      else none
    else if q.action = IResourceHolder.read then some ResourceHolderImpl.requestedNotFound
    else if Closing q.action ∨ q.action = IResourceHolder.delete then
      some (ResourceHolderImpl.inexistant q.action)
    else none
  | .free => if Closing q.action then some ResourceImpl.alreadyUnreserved else none
  | .held holder =>
    if q.action = IResourceHolder.get then some (ResourceImpl.alreadyReserved holder)
    else if Closing q.action ∧ holder ≠ q.transactionId then
      some (ResourceImpl.anotherTransaction holder q.transactionId)
    else none

/-- The entry is as the standing says. -/
def Stands : Option (ResourceImpl δ) → Standing → Prop
  | none, .missing => True
  | some r, .free => r.reserved = false
  | some r, .held holder => r.reserved = true ∧ r.transactionId = holder
  | _, _ => False

/-- The request throws what it is refused with, or returns. -/
def Meets (o : ResourceHolderImpl.Outcome δ) : Option Bytes → Prop
  | some message => o = .error message
  | none => ∃ p, o = .ok p

section OneRequest

variable (q : Request δ) {entry : Option (ResourceImpl δ)} {st : Standing}

theorem get_meets (action : q.action = IResourceHolder.get) (stands : Stands entry st) :
    Meets (q.outcome entry) (objection q st) := by
  rw [outcome_get entry action]
  cases entry with
  | none =>
    cases st with
    | missing =>
      rw [objection, if_pos action, ResourceHolderImpl.getOutcome]
      split
      · exact rfl
      · exact ⟨_, rfl⟩
    | free => exact stands.elim
    | held holder => exact stands.elim
  | some r =>
    cases st with
    | missing => exact stands.elim
    | free =>
      have opening : ¬ Closing q.action := fun closing => closing_ne_get closing action
      have idle : r.reserved = false := stands
      rw [objection, if_neg opening, ResourceHolderImpl.getOutcome, if_neg (by simp [idle])]
      exact ⟨_, rfl⟩
    | held holder =>
      obtain ⟨reserved, rfl⟩ := stands
      rw [objection, if_pos action, ResourceHolderImpl.getOutcome, if_pos reserved]
      exact rfl

theorem unreserve_meets (write : ResourceImpl δ → ResourceImpl δ) (closing : Closing q.action)
    (stands : Stands entry st) : Meets
      (ResourceHolderImpl.unreserveOutcome q.action write q.resource q.clock entry)
      (objection q st) := by
  have noGet : ¬ q.action = IResourceHolder.get := closing_ne_get closing
  cases entry with
  | none =>
    cases st with
    | missing =>
      have noRead : ¬ q.action = IResourceHolder.read := by
        rcases closing with action | action
        · rw [action]
          decide
        · rw [action]
          decide
      rw [objection, if_neg noGet, if_neg noRead, if_pos (Or.inl closing)]
      exact rfl
    | free => exact stands.elim
    | held holder => exact stands.elim
  | some r =>
    cases st with
    | missing => exact stands.elim
    | free =>
      have idle : r.reserved = false := stands
      rw [objection, if_pos closing, ResourceHolderImpl.unreserveOutcome, if_pos idle]
      exact rfl
    | held holder =>
      obtain ⟨reserved, rfl⟩ := stands
      rw [objection, if_neg noGet, ResourceHolderImpl.unreserveOutcome,
        if_neg (by simp [reserved])]
      by_cases own : r.transactionId = q.transactionId
      · have given : ¬ r.transactionId ≠ q.resource.transactionId := fun foreign => foreign own
        rw [if_neg given, if_neg (fun foreign => foreign.2 own)]
        exact ⟨_, rfl⟩
      · have given : r.transactionId ≠ q.resource.transactionId := own
        rw [if_pos given, if_pos ⟨closing, own⟩]
        exact rfl

omit q in
theorem not_known {action : Bytes} (noGet : ¬ action = IResourceHolder.get)
    (opening : ¬ Closing action) (noRead : ¬ action = IResourceHolder.read)
    (noDelete : ¬ action = IResourceHolder.delete) : ¬ Known action := by
  rintro (get | put | release | read | delete)
  · exact noGet get
  · exact opening (Or.inl put)
  · exact opening (Or.inr release)
  · exact noRead read
  · exact noDelete delete

/-- Requests that do not touch a reservation. -/
theorem found_meets (noGet : ¬ q.action = IResourceHolder.get) (opening : ¬ Closing q.action)
    (stands : Stands entry st) : Meets (q.outcome entry) (objection q st) := by
  have present : ∀ r : ResourceImpl δ, ∃ p, q.outcome (some r) = .ok p := by
    intro r
    by_cases read : q.action = IResourceHolder.read
    · rw [outcome_read _ read]
      exact ⟨_, rfl⟩
    · by_cases delete : q.action = IResourceHolder.delete
      · rw [outcome_delete _ delete]
        exact ⟨_, rfl⟩
      · have unknown := not_known noGet opening read delete
        rw [outcome_unknown _ unknown]
        exact ⟨_, rfl⟩
  cases entry with
  | none =>
    cases st with
    | missing =>
      rw [objection, if_neg noGet]
      by_cases read : q.action = IResourceHolder.read
      · rw [if_pos read, outcome_read _ read]
        exact rfl
      · by_cases delete : q.action = IResourceHolder.delete
        · rw [if_neg read, if_pos (Or.inr delete), outcome_delete _ delete, delete]
          exact rfl
        · have unknown := not_known noGet opening read delete
          have other : ¬ (Closing q.action ∨ q.action = IResourceHolder.delete) :=
            fun either => either.elim opening delete
          rw [if_neg read, if_neg other, outcome_unknown _ unknown]
          exact ⟨_, rfl⟩
    | free => exact stands.elim
    | held holder => exact stands.elim
  | some r =>
    cases st with
    | missing => exact stands.elim
    | free =>
      rw [objection, if_neg opening]
      exact present r
    | held holder =>
      rw [objection, if_neg noGet, if_neg (fun closing => opening closing.1)]
      exact present r

theorem outcome_meets (stands : Stands entry st) : Meets (q.outcome entry) (objection q st) := by
  by_cases get : q.action = IResourceHolder.get
  · exact get_meets q get stands
  · by_cases closing : Closing q.action
    · have meets := fun write => unreserve_meets q write closing stands
      rcases closing with action | action
      · rw [outcome_put entry action, ResourceHolderImpl.putOutcome, ← action]
        exact meets _
      · rw [outcome_release entry action, ResourceHolderImpl.releaseOutcome, ← action]
        exact meets _
    · exact found_meets q get closing stands

/-- The reply to a request for an entry that stands so. -/
theorem serve_meets {pool : Pool δ} (stands : Stands (pool q.key) st) :
    (serve pool q).1.errorMessage = objection q st ∧
      (Success (serve pool q).1 ↔ objection q st = none) := by
  have meets := outcome_meets q stands
  rw [serve_reply, success_respond]
  cases objects : objection q st with
  | none =>
    rw [objects] at meets
    obtain ⟨p, ok⟩ := meets
    rw [ok]
    exact ⟨rfl, iff_of_true ⟨p, rfl⟩ rfl⟩
  | some message =>
    rw [objects] at meets
    have threw : q.outcome (pool q.key) = .error message := meets
    rw [threw]
    exact ⟨rfl, iff_of_false (fun ok => by obtain ⟨p, same⟩ := ok; cases same) (by simp)⟩

end OneRequest

section Histories

/-- The last granted locking request. -/
def lastLock (k : Bytes) (h : List (ServerEvent δ)) : Option (Request δ) :=
  (lockEvents k h).getLast?.map Event.input

theorem standing_of_lastLock {last : Option (Request δ)} {entry : Option (ResourceImpl δ)}
    (left : ReservedCell.LastLock (last.map op) (cellOf entry)) :
    Stands entry (standing last) := by
  cases entry with
  | none =>
    rcases left with start | deleted
    · rw [Option.map_eq_none_iff.mp start]
      trivial
    · obtain ⟨g, rfl, delete⟩ := Option.map_eq_some_iff.mp deleted
      have action := op_eq_delete delete
      rw [standing, action, if_neg (by decide), if_pos rfl]
      trivial
  | some r =>
    cases held : r.reserved with
    | true =>
      rw [cellOf_reserved held] at left
      obtain ⟨offer, taken⟩ := left
      obtain ⟨g, rfl, get⟩ := Option.map_eq_some_iff.mp taken
      obtain ⟨action, own⟩ := op_eq_get get
      rw [standing, if_pos action]
      exact ⟨held, own.symm⟩
    | false =>
      rw [cellOf_free held] at left
      have closed : ∃ g, last = some g ∧ Closing g.action := by
        rcases left with ⟨t, v, put⟩ | ⟨t, released⟩
        · obtain ⟨g, here, put⟩ := Option.map_eq_some_iff.mp put
          exact ⟨g, here, Or.inl (op_eq_put put).1⟩
        · obtain ⟨g, here, release⟩ := Option.map_eq_some_iff.mp released
          exact ⟨g, here, Or.inr (op_eq_release release).1⟩
      obtain ⟨g, rfl, closing⟩ := closed
      have noDelete : ¬ g.action = IResourceHolder.delete := by
        rcases closing with action | action
        · rw [action]
          decide
        · rw [action]
          decide
      rw [standing, if_neg (closing_ne_get closing), if_neg noDelete]
      exact held

/-- The history says how the entry stands. -/
theorem entry_stands (qs : List (Request δ)) (k : Bytes) :
    Stands (final serve emptyPool qs k) (standing (lastLock k (trace serve emptyPool qs))) := by
  have left := (ReservedCell.lock_history (opsFor k qs)).2
  have events : trace ReservedCell.step .absent (opsFor k qs) =
      (eventsFor k (trace serve emptyPool qs)).map (cellEvent k) :=
    (cell_trace k emptyPool qs).symm
  have cell : final ReservedCell.step .absent (opsFor k qs) = cellOf (final serve emptyPool qs k) :=
    (cell_final k emptyPool qs).symm
  rw [events, lockEvents_seen, cell, List.getLast?_map] at left
  apply standing_of_lastLock
  rw [lastLock, Option.map_map]
  exact left

/-- The locking requests for the key, granted or not. -/
def lockRequests (k : Bytes) (qs : List (Request δ)) : List (Request δ) :=
  qs.filter fun q => decide (q.key = k) && decide (Locking q.action)

theorem lockRequests_snoc (k : Bytes) (qs : List (Request δ)) (q : Request δ) :
    lockRequests k (qs ++ [q]) =
      lockRequests k qs ++ if q.key = k ∧ Locking q.action then [q] else [] := by
  by_cases locks : q.key = k ∧ Locking q.action
  · simp [lockRequests, locks]
  · have idle : (decide (q.key = k) && decide (Locking q.action)) = false := by
      rw [Bool.eq_false_iff]
      intro both
      exact locks (by simpa using both)
    simp [lockRequests, idle, locks]

theorem lockEvents_snoc (k : Bytes) (h : List (ServerEvent δ)) (e : ServerEvent δ) :
    lockEvents k (h ++ [e]) = lockEvents k h ++
      if (e.input.key = k ∧ Locking e.input.action) ∧ Success e.reply then [e] else [] := by
  by_cases here : e.input.key = k <;> by_cases locks : Locking e.input.action <;>
    by_cases granted : Success e.reply <;> simp [lockEvents, eventsFor, here, locks, granted]

/-- As long as every locking request is granted, the lock history has them all. -/
theorem lockEvents_all {qs : List (Request δ)} {k : Bytes}
    (granted : ∀ e ∈ trace serve emptyPool qs, e.input.key = k → Locking e.input.action →
      Success e.reply) :
    (lockEvents k (trace serve emptyPool qs)).map Event.input = lockRequests k qs := by
  induction qs using List.reverseRecOn with
  | nil => rfl
  | append_singleton qs q ih =>
    rw [trace_snoc] at granted ⊢
    have before := ih fun e member => granted e (List.mem_append_left _ member)
    have last := granted (event serve (final serve emptyPool qs) q)
      (List.mem_append_right _ List.mem_cons_self)
    rw [lockEvents_snoc, lockRequests_snoc, List.map_append, before]
    congr 1
    by_cases locks : q.key = k ∧ Locking q.action
    · rw [if_pos ⟨locks, last locks.1 locks.2⟩, if_pos locks]
      rfl
    · rw [if_neg fun both => locks both.1, if_neg locks]
      rfl

/-- Whether a request is granted, and the message it is refused with, follow
from the last granted locking request for its key. So all locking requests for
a key are granted exactly when none of them is objected to after the one before
it. -/
theorem verdicts_follow_lock_history (qs : List (Request δ)) :
    (∀ q : Request δ,
      (serve (final serve emptyPool qs) q).1.errorMessage =
        objection q (standing (lastLock q.key (trace serve emptyPool qs))) ∧
      (Success (serve (final serve emptyPool qs) q).1 ↔
        objection q (standing (lastLock q.key (trace serve emptyPool qs))) = none)) ∧
    ∀ k, (∀ e ∈ trace serve emptyPool qs, e.input.key = k → Locking e.input.action →
        Success e.reply) ↔
      EachAfter (fun last q => objection q (standing last) = none) (lockRequests k qs) := by
  refine ⟨fun q => serve_meets q (entry_stands qs q.key), fun k => ?_⟩
  induction qs using List.reverseRecOn with
  | nil => exact iff_of_true (fun e member => by cases member) (eachAfter_nil _)
  | append_singleton qs q ih =>
    have split : (∀ e ∈ trace serve emptyPool (qs ++ [q]), e.input.key = k →
        Locking e.input.action → Success e.reply) ↔
        (∀ e ∈ trace serve emptyPool qs, e.input.key = k → Locking e.input.action →
          Success e.reply) ∧
        (q.key = k → Locking q.action → Success (serve (final serve emptyPool qs) q).1) := by
      rw [trace_snoc]
      simp only [List.forall_mem_append, List.forall_mem_singleton]
      rfl
    rw [split, ih, lockRequests_snoc]
    by_cases locks : q.key = k ∧ Locking q.action
    · rw [if_pos locks]
      have verdict := (serve_meets q (entry_stands qs q.key)).2
      constructor
      · rintro ⟨each, granted⟩
        apply eachAfter_snoc each
        have all := lockEvents_all (ih.mpr each)
        rw [← all, List.getLast?_map]
        rw [locks.1] at verdict
        exact verdict.mp (granted locks.1 locks.2)
      · intro each
        have before : EachAfter (fun last q => objection q (standing last) = none)
            (lockRequests k qs) := by
          intro pre a post cut
          exact each pre a (post ++ [q]) (by simp [cut])
        refine ⟨before, fun _ _ => verdict.mpr ?_⟩
        have all := lockEvents_all (ih.mpr before)
        have last := each _ q [] rfl
        rw [← all, List.getLast?_map] at last
        rw [locks.1]
        exact last
    · rw [if_neg locks, List.append_nil]
      refine and_iff_left_iff_imp.mpr ?_
      intro _ here locking
      exact False.elim (locks ⟨here, locking⟩)

end Histories

section Disclosure

/-- The `PUT` of other data with a resource that was handed out. -/
def takeOver (r : ResourceImpl δ) (i : ResourceIdentifierImpl) (data : δ) (now : Clock) :
    Request δ where
  action := IResourceHolder.put
  resource := { r with resourceIdentifier := some i, data := data }
  identifier := i
  identified := rfl
  clock := now

/-- A reservation keeps nobody out who asks for its transaction id. A refused
`GET` names it, and a `READ`, which is always granted, hands it out; a `PUT` with
it frees the variable with any data, and then the holder is refused. -/
theorem anyone_takes_over (pool : Pool δ) (k : Bytes) (t : Option Bytes)
    (reserved : ReservedBy pool k t) (asks : Request δ) (key : asks.key = k) :
    (asks.action = IResourceHolder.get →
      (serve pool asks).1.errorMessage = some (ResourceImpl.alreadyReserved t)) ∧
    (asks.action = IResourceHolder.read → (serve pool asks).2 = pool ∧
      ∃ r, (serve pool asks).1.resource = some r ∧ r.transactionId = t ∧
        ∀ data now, let put := takeOver r asks.identifier data now
          Success (serve pool put).1 ∧
          (∃ e, (serve pool put).2 k = some e ∧ e.reserved = false ∧ e.data = data) ∧
          ∀ q : Request δ, q.key = k → Closing q.action →
            (serve (serve pool put).2 q).1.errorMessage =
              some ResourceImpl.alreadyUnreserved) := by
  subst key
  obtain ⟨found, present, held, rfl⟩ := reserved
  have stands : Stands (pool asks.key) (.held found.transactionId) := by
    rw [present]
    exact ⟨held, rfl⟩
  constructor
  · intro action
    rw [(serve_meets asks stands).1, objection, if_pos action]
  · intro action
    have unobjected : objection asks (.held found.transactionId) = none := by
      have opening : ¬ Closing IResourceHolder.read := by decide
      rw [objection, action, if_neg (by decide), if_neg fun both => opening both.1]
    have granted : Success (serve pool asks).1 := (serve_meets asks stands).2.mpr unobjected
    obtain ⟨r, here, handed, left⟩ := read_granted action granted
    have same : r = found := Option.some.inj (here.symm.trans present)
    subst same
    refine ⟨?_, r, handed, rfl, ?_⟩
    · refine serve_unchanged pool asks ?_
      rw [← serve_here, left, here]
    · intro data now
      have closing : Closing (takeOver r asks.identifier data now).action := Or.inl rfl
      have success : Success (serve pool (takeOver r asks.identifier data now)).1 :=
        closing_granted ⟨r, present, held, rfl⟩ closing
      obtain ⟨e, -, -, -, -, freed⟩ := put_granted rfl success
      refine ⟨success, ⟨_, freed, rfl, rfl⟩, ?_⟩
      intro q sameKey closes
      have idle : Stands ((serve pool (takeOver r asks.identifier data now)).2 q.key) .free := by
        have left : (serve pool (takeOver r asks.identifier data now)).2 asks.key = _ := freed
        rw [sameKey, left]
        exact rfl
      rw [(serve_meets q idle).1, objection, if_pos closes]

/-- Somebody reads a variable that another one holds, and puts 7. -/
theorem reader_takes_over :
    let holds : Pool Nat := (serve emptyPool (sampleRequest IResourceHolder.get "first" 5)).2
    let reads := sampleRequest IResourceHolder.read "second" 0
    ∃ r, (serve holds reads).1.resource = some r ∧
      Success (serve holds (takeOver r reads.identifier 7 reads.clock)).1 := by
  have reserved : ReservedBy (serve emptyPool (sampleRequest IResourceHolder.get "first" 5)).2
      (sampleRequest IResourceHolder.get "first" 5).key (some (ascii "first")) :=
    get_reserves rfl (by decide)
  obtain ⟨-, r, handed, -, put⟩ := (anyone_takes_over _ _ _ reserved
    (sampleRequest IResourceHolder.read "second" 0) rfl).2 rfl
  exact ⟨r, handed, (put 7 _).1⟩

end Disclosure

end Verdicts
