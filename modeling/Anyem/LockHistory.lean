import Anyem.Reservations

/-!
# The lock history of a key

The granted `GET`, `PUT`, `RELEASE` and `DELETE` requests for one key, in the
order in which the server took them. The key's cell says which of them may
stand next to each other, through every creation and deletion of the entry.
-/

namespace LockHistory

open ReplyMachine Resource ResourceHolder ResourceManager PoolCells Reservations

variable {δ : Type}

/-- The actions that take part in locking. -/
def Locking (action : Bytes) : Prop :=
  action = IResourceHolder.get ∨ Closing action ∨ action = IResourceHolder.delete

instance (action : Bytes) : Decidable (Locking action) :=
  inferInstanceAs (Decidable (_ ∨ _ ∨ _))

/-- The requests for `k` with a locking action that were answered `SUCCESS`. -/
def lockEvents (k : Bytes) (h : List (ServerEvent δ)) : List (ServerEvent δ) :=
  (eventsFor k h).filter fun e => decide (Locking e.input.action) && decide (Success e.reply)

theorem op_locks (q : Request δ) : (op q).locks = decide (Locking q.action) := by
  rcases op_cases q with ⟨action, offer, hop⟩ | ⟨action, hop⟩ | ⟨action, hop⟩ | ⟨action, hop⟩ |
    ⟨action, hop⟩ | ⟨unknown, hop⟩
  case inr.inr.inr.inr.inr =>
    have idle : ¬ Locking q.action := by
      rintro (isGet | (isPut | isRelease) | isDelete)
      · exact unknown (Or.inl isGet)
      · exact unknown (Or.inr (Or.inl isPut))
      · exact unknown (Or.inr (Or.inr (Or.inl isRelease)))
      · exact unknown (Or.inr (Or.inr (Or.inr (Or.inr isDelete))))
    rw [hop, decide_eq_false idle]
    rfl
  all_goals
    rw [hop, action]
    rfl

/-- A lock event, as the cell's lock history records it. -/
theorem lockEvents_seen (k : Bytes) (h : List (ServerEvent δ)) :
    ReservedCell.lockHistory ((eventsFor k h).map (cellEvent k)) =
      (lockEvents k h).map fun e => op e.input := by
  have same : ((fun e : ReservedCell.CellEvent δ (Option Bytes) =>
      e.input.locks && e.reply.granted) ∘ cellEvent k) =
      fun e : ServerEvent δ => decide (Locking e.input.action) && decide (Success e.reply) := by
    funext e
    have locks : (cellEvent k e).input.locks = decide (Locking e.input.action) :=
      op_locks e.input
    have granted : (cellEvent k e).reply.granted = decide (Success e.reply) := by
      rw [Bool.eq_iff_iff, decide_eq_true_eq]
      exact answerOf_granted e.reply
    simp only [Function.comp, locks, granted]
  rw [ReservedCell.lockHistory, List.filter_map, List.map_map, same, lockEvents]
  rfl

theorem lockEvents_follow (qs : List (Request δ)) (k : Bytes) :
    EachAfter (fun last e => ReservedCell.MayFollow (last.map fun e => op e.input) (op e.input))
      (lockEvents k (trace serve emptyPool qs)) := by
  apply eachAfter_of_map
  rw [← lockEvents_seen, cell_trace]
  exact (ReservedCell.lock_history (opsFor k qs)).1

theorem op_ends {q : Request δ} (ends : (op q).ends = true) :
    Closing q.action ∨ q.action = IResourceHolder.delete := by
  rcases op_cases q with ⟨-, offer, h⟩ | ⟨action, -⟩ | ⟨action, -⟩ | ⟨-, h⟩ | ⟨action, -⟩ | ⟨-, h⟩
  · rw [h] at ends
    cases ends
  · exact Or.inl (Or.inl action)
  · exact Or.inl (Or.inr action)
  · rw [h] at ends
    cases ends
  · exact Or.inr action
  · rw [h] at ends
    cases ends

section Neighbours

variable {last : Option (ServerEvent δ)} {e : ServerEvent δ}

theorem closing_follows (closing : Closing e.input.action)
    (follows : ReservedCell.MayFollow (last.map fun e => op e.input) (op e.input)) :
    ∃ g, last = some g ∧ g.input.action = IResourceHolder.get ∧
      g.input.transactionId = e.input.transactionId := by
  have cell : ∃ offer, (last.map fun e => op e.input) =
      some (.get e.input.transactionId offer) := by
    rcases closing with action | action
    · rwa [op_put action] at follows
    · rwa [op_release action] at follows
  obtain ⟨offer, hlast⟩ := cell
  obtain ⟨g, hg, hop⟩ := Option.map_eq_some_iff.mp hlast
  obtain ⟨action, same⟩ := op_eq_get hop
  exact ⟨g, hg, action, same⟩

theorem get_follows (action : e.input.action = IResourceHolder.get)
    (follows : ReservedCell.MayFollow (last.map fun e => op e.input) (op e.input)) :
    last = none ∨ ∃ x, last = some x ∧
      (Closing x.input.action ∨ x.input.action = IResourceHolder.delete) := by
  rw [op_get action] at follows
  rcases follows with start | ⟨r, hlast, ends⟩
  · exact Or.inl (Option.map_eq_none_iff.mp start)
  · obtain ⟨x, hx, rfl⟩ := Option.map_eq_some_iff.mp hlast
    exact Or.inr ⟨x, hx, op_ends ends⟩

theorem delete_follows (action : e.input.action = IResourceHolder.delete)
    (follows : ReservedCell.MayFollow (last.map fun e => op e.input) (op e.input)) :
    ∃ x, last = some x := by
  rw [op_delete action] at follows
  obtain ⟨r, hlast⟩ := follows
  obtain ⟨x, hx, -⟩ := Option.map_eq_some_iff.mp hlast
  exact ⟨x, hx⟩

end Neighbours

/-- In the lock history of a key every `PUT` and `RELEASE` comes right after
the `GET` of its own transaction, every `GET` is first or comes right after a
`PUT`, a `RELEASE` or a `DELETE`, and every `DELETE` comes after something. So
between two that close a reservation there is the `GET` of the second one, and
a `PUT` or `RELEASE` is granted on a resource that its own transaction holds
and on no other, and leaves a missing entry missing. -/
theorem lock_history_law (qs : List (Request δ)) (k : Bytes) :
    (∀ pre e post, lockEvents k (trace serve emptyPool qs) = pre ++ e :: post →
      (Closing e.input.action → ∃ g, pre.getLast? = some g ∧
        g.input.action = IResourceHolder.get ∧
        g.input.transactionId = e.input.transactionId) ∧
      (e.input.action = IResourceHolder.get → pre = [] ∨ ∃ x, pre.getLast? = some x ∧
        (Closing x.input.action ∨ x.input.action = IResourceHolder.delete)) ∧
      (e.input.action = IResourceHolder.delete → ∃ x, pre.getLast? = some x)) ∧
    (∀ pre c mid c' post,
      lockEvents k (trace serve emptyPool qs) = pre ++ c :: (mid ++ c' :: post) →
      Closing c.input.action → Closing c'.input.action →
      ∃ g ∈ mid, g.input.action = IResourceHolder.get ∧
        g.input.transactionId = c'.input.transactionId) ∧
    (∀ e ∈ trace serve emptyPool qs, e.input.key = k → Closing e.input.action →
      (Success e.reply → ReservedBy e.before k e.input.transactionId) ∧
      (e.before k = none → ¬ Success e.reply ∧ e.after k = none)) := by
  have follow := lockEvents_follow qs k
  refine ⟨?_, ?_, ?_⟩
  · intro pre e post split
    have follows := follow pre e post split
    refine ⟨fun closing => closing_follows closing follows, ?_,
      fun action => delete_follows action follows⟩
    intro action
    rcases get_follows action follows with start | ⟨x, hx, ends⟩
    · exact Or.inl (List.getLast?_eq_none_iff.mp start)
    · exact Or.inr ⟨x, hx, ends⟩
  · intro pre c mid c' post split closing closing'
    have follows := follow (pre ++ c :: mid) c' post (by simp [split])
    obtain ⟨g, hg, action, same⟩ := closing_follows closing' follows
    rw [List.getLast?_append_of_ne_nil _ (List.cons_ne_nil c mid)] at hg
    rcases List.mem_cons.mp (List.mem_of_getLast? hg) with rfl | member
    · -- The first of the two closes a reservation, so it is not the `GET`.
      exact False.elim (closing_ne_get closing action)
    · exact ⟨g, member, action, same⟩
  · intro e member here closing
    obtain ⟨reply, after⟩ := event_served member
    subst here
    have reserved : Success e.reply → ReservedBy e.before e.input.key e.input.transactionId := by
      intro granted
      rw [reply] at granted
      exact closing_reserved closing granted
    refine ⟨reserved, ?_⟩
    intro missing
    have refused : ¬ Success e.reply := by
      intro granted
      obtain ⟨r, present, -⟩ := reserved granted
      rw [missing] at present
      cases present
    refine ⟨refused, ?_⟩
    rw [reply] at refused
    rw [after, refused_serve _ _ refused, missing]

end LockHistory
