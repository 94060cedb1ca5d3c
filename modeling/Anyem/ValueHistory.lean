import Anyem.Reservations

/-!
# The value history of a key

A variable is a register: it starts with the data of the `GET` that created
it, takes the data of each granted `PUT`, and hands out what it has. The value
and presence laws of the key's cell are read back on the server's own history.
-/

namespace ValueHistory

open ReplyMachine Resource ResourceHolder ResourceManager PoolCells Reservations

variable {δ : Type}

/-- The event is a `GET` for `k` that was granted while `k` had no entry. -/
def Creates (k : Bytes) (e : ServerEvent δ) : Prop :=
  e.input.action = IResourceHolder.get ∧ Success e.reply ∧ e.before k = none

/-- The data that a granted `PUT` wrote. -/
def putData (e : ServerEvent δ) : Option δ :=
  if e.input.action = IResourceHolder.put ∧ Success e.reply then some e.input.data else none

/-- The data of the last granted `PUT` of a history, or `initial` without one. -/
def lastPut (h : List (ServerEvent δ)) (initial : δ) : δ :=
  (h.filterMap putData).getLast?.getD initial

section Prefixes

/-- Up to an event for `k`, the events for `k` are a run of the key's cell. -/
theorem cell_prefix {qs : List (Request δ)} {k : Bytes} {pre post : List (ServerEvent δ)}
    {x : ServerEvent δ}
    (split : eventsFor k (trace serve emptyPool qs) = pre ++ x :: post) :
    ∃ rs, pre.map (cellEvent k) = trace ReservedCell.step .absent rs ∧
      cellOf (x.before k) = final ReservedCell.step .absent rs ∧
      cellEvent k x =
        event ReservedCell.step (final ReservedCell.step .absent rs) (op x.input) := by
  have mapped : trace ReservedCell.step .absent (opsFor k qs) =
      pre.map (cellEvent k) ++ cellEvent k x :: post.map (cellEvent k) := by
    have seen := cell_trace k (emptyPool : Pool δ) qs
    rw [split, List.map_append, List.map_cons] at seen
    exact seen.symm
  obtain ⟨rs, rs', -, hpre, hx, -⟩ := trace_split ReservedCell.step mapped
  exact ⟨rs, hpre, congrArg Event.before hx, hx⟩

/-- The same up to and with the event. -/
theorem cell_prefix_snoc {qs : List (Request δ)} {k : Bytes} {pre post : List (ServerEvent δ)}
    {x : ServerEvent δ}
    (split : eventsFor k (trace serve emptyPool qs) = pre ++ x :: post) :
    ∃ rs, (pre ++ [x]).map (cellEvent k) = trace ReservedCell.step .absent rs ∧
      cellOf (x.after k) = final ReservedCell.step .absent rs := by
  obtain ⟨rs, hpre, -, hx⟩ := cell_prefix split
  refine ⟨rs ++ [op x.input], ?_, ?_⟩
  · rw [List.map_append, hpre, trace_snoc, ← hx]
    rfl
  · rw [final_snoc]
    exact congrArg Event.after hx

end Prefixes

section Seen

/-- A served event creates the entry exactly when its cell sees a creation, and
then with its own data. -/
theorem created_seen {k : Bytes} {e : ServerEvent δ} {pool : Pool δ} {qs : List (Request δ)}
    (member : e ∈ eventsFor k (trace serve pool qs)) (d : δ) :
    ReservedCell.created (cellEvent k e) = some d ↔ Creates k e ∧ e.input.data = d := by
  obtain ⟨inTrace, here⟩ := mem_eventsFor.mp member
  constructor
  · intro creates
    have before : e.before k = none := by
      rw [← cellOf_eq_absent]
      cases hc : cellOf (e.before k) with
      | absent => rfl
      | free v => simp [ReservedCell.created, cellEvent, hc] at creates
      | held v t => simp [ReservedCell.created, cellEvent, hc] at creates
    have absent : cellOf (e.before k) = .absent := (cellOf_eq_absent _).mpr before
    rcases op_cases e.input with ⟨action, -⟩ | ⟨-, h⟩ | ⟨-, h⟩ | ⟨-, h⟩ | ⟨-, h⟩ | ⟨-, h⟩
    · simp only [ReservedCell.created, cellEvent, absent, op_get action] at creates
      split at creates
      · rename_i granted
        split at creates
        · cases creates
        · exact ⟨⟨action, (answerOf_granted _).mp granted, before⟩, Option.some.inj creates⟩
      · cases creates
    all_goals simp [ReservedCell.created, cellEvent, absent, h] at creates
  · rintro ⟨⟨action, granted, before⟩, rfl⟩
    have absent : cellOf (e.before k) = .absent := (cellOf_eq_absent _).mpr before
    have offered : e.input.resource.reserved = false := by
      obtain ⟨reply, -⟩ := event_served inTrace
      rw [reply] at granted
      obtain ⟨r, found, free, -⟩ := get_granted action granted
      rw [here, before] at found
      rcases found with found | ⟨-, rfl⟩
      · cases found
      · exact free
    simp [ReservedCell.created, cellEvent, absent, op_get action, offered,
      (answerOf_granted _).mpr granted]

theorem written_seen (k : Bytes) (e : ServerEvent δ) :
    ReservedCell.written (cellEvent k e) = putData e := by
  by_cases action : e.input.action = IResourceHolder.put
  · simp only [ReservedCell.written, cellEvent, op_put action, putData, action,
      answerOf_granted e.reply, true_and]
  · rw [putData, if_neg (fun h => action h.1), ReservedCell.written]
    split
    · rename_i t w hop
      exact False.elim (action (op_eq_put hop).1)
    · rfl

theorem latest_seen (k : Bytes) (h : List (ServerEvent δ)) (d : δ) :
    ReservedCell.latest (h.map (cellEvent k)) d = lastPut h d := by
  have same : ReservedCell.written ∘ cellEvent k = putData (δ := δ) := by
    funext e
    exact written_seen k e
  rw [ReservedCell.latest, List.filterMap_map, same, lastPut]

theorem takes_seen (k : Bytes) (e : ServerEvent δ) :
    ReservedCell.Takes (cellEvent k e) ↔
      e.input.action = IResourceHolder.get ∧ Success e.reply := by
  have granted := answerOf_granted e.reply
  constructor
  · rintro ⟨⟨t, offer, hop⟩, taken⟩
    exact ⟨(op_eq_get hop).1, granted.mp taken⟩
  · rintro ⟨action, taken⟩
    exact ⟨⟨_, _, op_get action⟩, granted.mpr taken⟩

theorem deletes_seen (k : Bytes) (e : ServerEvent δ) :
    ReservedCell.Deletes (cellEvent k e) ↔
      e.input.action = IResourceHolder.delete ∧ Success e.reply := by
  have granted := answerOf_granted e.reply
  constructor
  · rintro ⟨hop, deleted⟩
    exact ⟨op_eq_delete hop, granted.mp deleted⟩
  · rintro ⟨action, deleted⟩
    exact ⟨op_delete action, granted.mpr deleted⟩

end Seen

/-- The value that is stored after an event for `k` was written since the entry
was created, or comes from the creating `GET`. -/
theorem stored_value {qs : List (Request δ)} {k : Bytes} {pre post : List (ServerEvent δ)}
    {x : ServerEvent δ} (split : eventsFor k (trace serve emptyPool qs) = pre ++ x :: post)
    {r : ResourceImpl δ} (present : x.after k = some r) :
    ∃ before c since, pre ++ [x] = before ++ c :: since ∧ Creates k c ∧
      (∀ y ∈ since, ¬ Creates k y) ∧ r.data = lastPut since c.input.data := by
  obtain ⟨rs, hseen, hafter⟩ := cell_prefix_snoc split
  have value : (final ReservedCell.step .absent rs).value? = some r.data := by
    rw [← hafter, cellOf_value, present]
    rfl
  obtain ⟨before', c', since', d, hsplit, hc', old, hlatest⟩ :=
    ReservedCell.value_history rs r.data value
  rw [← hseen] at hsplit
  obtain ⟨before, c, since, hpre, -, rfl, rfl⟩ := map_split hsplit
  have served : ∀ y ∈ pre ++ [x], y ∈ eventsFor k (trace serve emptyPool qs) := by
    intro y hy
    rw [split]
    rcases List.mem_append.mp hy with hy | hy
    · exact List.mem_append_left _ hy
    · exact List.mem_append_right _ (List.mem_singleton.mp hy ▸ List.mem_cons_self)
  rw [hpre] at served
  obtain ⟨creates, rfl⟩ := (created_seen (served c (by simp)) d).mp hc'
  refine ⟨before, c, since, hpre, creates, ?_, ?_⟩
  · intro y hy creates'
    have none := old (cellEvent k y) (List.mem_map_of_mem hy)
    have some := (created_seen (served y (by simp [hy])) y.input.data).mpr ⟨creates', rfl⟩
    rw [none] at some
    cases some
  · rw [hlatest, latest_seen]

/-- An entry is present exactly when some `GET` was granted and no `DELETE` was
granted after it. -/
theorem present_iff {qs : List (Request δ)} {k : Bytes} {pre post : List (ServerEvent δ)}
    {x : ServerEvent δ} (split : eventsFor k (trace serve emptyPool qs) = pre ++ x :: post) :
    x.before k ≠ none ↔ ∃ before g since, pre = before ++ g :: since ∧
      (g.input.action = IResourceHolder.get ∧ Success g.reply) ∧
      ∀ y ∈ since, ¬ (y.input.action = IResourceHolder.delete ∧ Success y.reply) := by
  obtain ⟨rs, hseen, hbefore, -⟩ := cell_prefix split
  have law := ReservedCell.presence_history rs
  rw [ReservedCell.PresenceLaw, ← hseen, ← hbefore] at law
  have present : x.before k ≠ none ↔ cellOf (x.before k) ≠ .absent :=
    not_congr (cellOf_eq_absent _).symm
  rw [present, ← law]
  constructor
  · rintro ⟨before', g', since', hsplit, takes, kept⟩
    obtain ⟨before, g, since, hpre, -, rfl, rfl⟩ := map_split hsplit
    refine ⟨before, g, since, hpre, (takes_seen k g).mp takes, ?_⟩
    intro y hy deletes
    exact kept _ (List.mem_map_of_mem hy) ((deletes_seen k y).mpr deletes)
  · rintro ⟨before, g, since, rfl, takes, kept⟩
    refine ⟨before.map (cellEvent k), cellEvent k g, since.map (cellEvent k), ?_,
      (takes_seen k g).mpr takes, ?_⟩
    · rw [List.map_append, List.map_cons]
    · intro y' hy'
      obtain ⟨y, hy, rfl⟩ := List.mem_map.mp hy'
      exact fun deletes => kept y hy ((deletes_seen k y).mp deletes)

/-- What a granted `GET` or `READ` hands out is what is stored after it. -/
theorem handed_out {pool : Pool δ} {q : Request δ}
    (asks : q.action = IResourceHolder.get ∨ q.action = IResourceHolder.read)
    (granted : Success (serve pool q).1) :
    ∃ r, (serve pool q).1.resource = some r ∧ (serve pool q).2 q.key = some r := by
  rcases asks with action | action
  · obtain ⟨r, -, -, reply, left⟩ := get_granted action granted
    exact ⟨_, reply, left⟩
  · obtain ⟨r, -, reply, left⟩ := read_granted action granted
    exact ⟨r, reply, left⟩

theorem read_refused_iff {pool : Pool δ} {q : Request δ}
    (action : q.action = IResourceHolder.read) :
    Refused (serve pool q).1 ↔ pool q.key = none := by
  rw [serve_refused_iff, serve_reply, success_respond, outcome_read _ action]
  cases pool q.key with
  | none => exact iff_of_true (by rintro ⟨p, ok⟩; cases ok) rfl
  | some r => exact iff_of_false (fun refused => refused ⟨_, rfl⟩) (by simp)

/-- A stored value changes only by a creation, a granted `PUT` or a granted
`DELETE` of its own key. -/
theorem value_kept {pool : Pool δ} {q : Request δ} {k : Bytes}
    (changed : ((serve pool q).2 k).map ResourceImpl.data ≠ (pool k).map ResourceImpl.data) :
    q.key = k ∧ Success (serve pool q).1 ∧
      (q.action = IResourceHolder.get ∧ pool k = none ∨ q.action = IResourceHolder.put ∨
        q.action = IResourceHolder.delete) := by
  by_cases here : q.key = k
  · subst here
    by_cases success : Success (serve pool q).1
    · refine ⟨rfl, success, ?_⟩
      obtain ⟨result, granted⟩ := granted_here success
      generalize (serve pool q).2 q.key = left at granted changed
      generalize pool q.key = entry at granted changed ⊢
      cases granted with
      | create action free => exact Or.inl ⟨action, rfl⟩
      | put action found held own => exact Or.inr (Or.inl action)
      | delete action found => exact Or.inr (Or.inr action)
      | take action found free => exact False.elim (changed rfl)
      | release action found held own => exact False.elim (changed rfl)
      | read action found => exact False.elim (changed rfl)
      | unknown unknown entry => exact False.elim (changed rfl)
    · exact False.elim (changed (by rw [refused_serve pool q success]))
  · exact False.elim (changed (by rw [serve_elsewhere pool q here]))

/-- The history of a key is that of a register. A granted `GET` or `READ` hands
out the data of the last granted `PUT` since the entry was created, or else the
data of the `GET` that created it; a `READ` is refused exactly when no `GET`
was granted since the start or the last granted `DELETE`; and only those three
change a value. -/
theorem value_history_law (qs : List (Request δ)) (k : Bytes) :
    (∀ pre x post, eventsFor k (trace serve emptyPool qs) = pre ++ x :: post →
      x.input.action = IResourceHolder.get ∨ x.input.action = IResourceHolder.read →
      Success x.reply →
      ∃ r before c since, x.reply.resource = some r ∧ pre ++ [x] = before ++ c :: since ∧
        Creates k c ∧ (∀ y ∈ since, ¬ Creates k y) ∧ r.data = lastPut since c.input.data) ∧
    (∀ pre x post, eventsFor k (trace serve emptyPool qs) = pre ++ x :: post →
      x.input.action = IResourceHolder.read →
      (Refused x.reply ↔ ¬ ∃ before g since, pre = before ++ g :: since ∧
        (g.input.action = IResourceHolder.get ∧ Success g.reply) ∧
        ∀ y ∈ since, ¬ (y.input.action = IResourceHolder.delete ∧ Success y.reply))) ∧
    (∀ e ∈ trace serve emptyPool qs,
      (e.after k).map ResourceImpl.data ≠ (e.before k).map ResourceImpl.data →
      e.input.key = k ∧ (Creates k e ∨
        Success e.reply ∧ (e.input.action = IResourceHolder.put ∨
          e.input.action = IResourceHolder.delete))) := by
  have at_event : ∀ {pre x post}, eventsFor k (trace serve emptyPool qs) = pre ++ x :: post →
      (x.reply = (serve x.before x.input).1 ∧ x.after = (serve x.before x.input).2) ∧
        x.input.key = k := by
    intro pre x post split
    have member : x ∈ eventsFor k (trace serve emptyPool qs) := by
      rw [split]
      exact List.mem_append_right _ List.mem_cons_self
    obtain ⟨inTrace, here⟩ := mem_eventsFor.mp member
    exact ⟨event_served inTrace, here⟩
  refine ⟨?_, ?_, ?_⟩
  · intro pre x post split asks granted
    obtain ⟨⟨reply, after⟩, here⟩ := at_event split
    rw [reply] at granted ⊢
    obtain ⟨r, handed, stored⟩ := handed_out asks granted
    rw [here, ← after] at stored
    obtain ⟨before, c, since, hsplit, creates, old, value⟩ := stored_value split stored
    exact ⟨r, before, c, since, handed, hsplit, creates, old, value⟩
  · intro pre x post split action
    obtain ⟨⟨reply, -⟩, here⟩ := at_event split
    rw [reply, read_refused_iff action, here, ← present_iff split, not_ne_iff]
  · intro e member changed
    obtain ⟨reply, after⟩ := event_served member
    rw [after] at changed
    obtain ⟨here, granted, ⟨action, missing⟩ | writes⟩ := value_kept changed
    · rw [← reply] at granted
      exact ⟨here, Or.inl ⟨action, granted, missing⟩⟩
    · rw [← reply] at granted
      exact ⟨here, Or.inr ⟨granted, writes⟩⟩

end ValueHistory
