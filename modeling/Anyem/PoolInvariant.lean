import Anyem.Reservations

/-!
# The representation invariant of the pool

The fields of an entry are written one by one, and the entry is shared,
replaced and dropped by five handlers. What holds of every entry of every
reachable pool relates its fields to each other, to its key, and to the
requests that were granted before.
-/

namespace PoolInvariant

open ReplyMachine Resource ResourceHolder ResourceManager PoolCells Reservations

variable {δ : Type}

/-- The fields of a reserved entry, apart from its owner. -/
structure Held (r : ResourceImpl δ) : Prop where
  reserved : r.reserved = true
  reservationDate : r.reservationDate ≠ none
  reservationTime : r.reservationTime ≠ none

/-- The fields of an entry that was given back. -/
structure Idle (r : ResourceImpl δ) : Prop where
  reserved : r.reserved = false
  transactionId : r.transactionId = none
  reservationDate : r.reservationDate = none
  reservationTime : r.reservationTime = none
  unreservationDate : r.unreservationDate ≠ none
  unreservationTime : r.unreservationTime ≠ none

theorem held_reservedBy (r : ResourceImpl δ) (t : Option Bytes) (now : Clock) :
    Held (r.reservedBy t now) :=
  ⟨rfl, Option.some_ne_none _, Option.some_ne_none _⟩

theorem idle_unreserved (r : ResourceImpl δ) (now : Clock) : Idle (r.unreserved now) :=
  ⟨rfl, rfl, rfl, rfl, Option.some_ne_none _, Option.some_ne_none _⟩

theorem idle_setData {r : ResourceImpl δ} (idle : Idle r) (data : δ) :
    Idle { r with data := data } :=
  ⟨idle.reserved, idle.transactionId, idle.reservationDate, idle.reservationTime,
    idle.unreservationDate, idle.unreservationTime⟩

/-- The key merged from the entry's own identifier is `k`. -/
def KeyedBy (k : Bytes) (r : ResourceImpl δ) : Prop :=
  ∃ i, r.resourceIdentifier = some i ∧ mergedKey i = k

/-- A `GET` that was answered `SUCCESS`. -/
def GrantedGet (e : ServerEvent δ) : Prop :=
  e.input.action = IResourceHolder.get ∧ Success e.reply

/-- The last granted `GET` for `k` carried transaction `t`. -/
def LastGet (h : List (ServerEvent δ)) (k : Bytes) (t : Option Bytes) : Prop :=
  ∃ pre g mid, eventsFor k h = pre ++ g :: mid ∧
    (GrantedGet g ∧ g.input.transactionId = t) ∧ ∀ x ∈ mid, ¬ GrantedGet x

theorem lastGet_snoc_get {h : List (ServerEvent δ)} {e : ServerEvent δ} (granted : GrantedGet e) :
    LastGet (h ++ [e]) e.input.key e.input.transactionId := by
  refine ⟨eventsFor e.input.key h, e, [], ?_, ⟨granted, rfl⟩, by simp⟩
  simp [eventsFor]

theorem lastGet_snoc_other {h : List (ServerEvent δ)} {e : ServerEvent δ} {k : Bytes}
    {t : Option Bytes} (last : LastGet h k t) (other : e.input.key = k → ¬ GrantedGet e) :
    LastGet (h ++ [e]) k t := by
  by_cases here : e.input.key = k
  · have grows : eventsFor k (h ++ [e]) = eventsFor k h ++ [e] := by
      simp [eventsFor, here]
    rw [LastGet, grows]
    exact (exists_last_snoc (p := fun g => GrantedGet g ∧ g.input.transactionId = t)
      (q := fun x => ¬ GrantedGet x) (fun get => other here get.1) (other here)).mpr last
  · have same : eventsFor k (h ++ [e]) = eventsFor k h := by
      simp [eventsFor, here]
    rw [LastGet, same]
    exact last

/-- An entry is reserved by the last granted `GET` for its key, or given back. -/
structure Represents (h : List (ServerEvent δ)) (k : Bytes) (r : ResourceImpl δ) : Prop where
  keyed : KeyedBy k r
  state : Held r ∧ LastGet h k r.transactionId ∨ Idle r

def Represented (h : List (ServerEvent δ)) (pool : Pool δ) : Prop :=
  ∀ k r, pool k = some r → Represents h k r

theorem represents_snoc_other {h : List (ServerEvent δ)} {e : ServerEvent δ} {k : Bytes}
    {r : ResourceImpl δ} (represents : Represents h k r)
    (other : e.input.key = k → ¬ GrantedGet e) : Represents (h ++ [e]) k r where
  keyed := represents.keyed
  state := represents.state.imp
    (fun held => ⟨held.1, lastGet_snoc_other held.2 other⟩) id

theorem represents_reservedBy {h : List (ServerEvent δ)} {e : ServerEvent δ}
    {r : ResourceImpl δ} (keyed : KeyedBy e.input.key r) (granted : GrantedGet e) :
    Represents (h ++ [e]) e.input.key
      (r.reservedBy e.input.transactionId e.input.clock) where
  keyed := keyed
  state := Or.inl ⟨held_reservedBy _ _ _, lastGet_snoc_get granted⟩

theorem represents_idle {h : List (ServerEvent δ)} {k : Bytes} {r : ResourceImpl δ}
    (keyed : KeyedBy k r) (idle : Idle r) : Represents h k r where
  keyed := keyed
  state := Or.inr idle

/-- What a request leaves at its own key. -/
theorem represented_here {h : List (ServerEvent δ)} {pool : Pool δ}
    (represented : Represented h pool) (q : Request δ) {r : ResourceImpl δ}
    (left : (serve pool q).2 q.key = some r) :
    Represents (h ++ [event serve pool q]) q.key r := by
  by_cases granted : Success (serve pool q).1
  · obtain ⟨result, carried⟩ := granted_here granted
    have kept : ∀ found, pool q.key = some found → KeyedBy q.key found :=
      fun found present => (represented q.key found present).keyed
    -- An action other than `GET` keeps what the history says about the last one.
    have old : ∀ found, pool q.key = some found → q.action ≠ IResourceHolder.get →
        Represents (h ++ [event serve pool q]) q.key found := fun found present action =>
      represents_snoc_other (represented q.key found present) (fun _ get => action get.1)
    rw [left] at carried
    generalize pool q.key = entry at carried kept old
    cases carried with
    | create action free =>
      exact represents_reservedBy (e := event serve pool q)
        ⟨q.identifier, q.identified, rfl⟩ ⟨action, granted⟩
    | take action found free =>
      exact represents_reservedBy (e := event serve pool q)
        (kept found rfl) ⟨action, granted⟩
    | put action found held own =>
      exact represents_idle (kept found rfl) (idle_setData (idle_unreserved found _) _)
    | release action found held own =>
      exact represents_idle (kept found rfl) (idle_unreserved found _)
    | read action found =>
      exact old r rfl (by rw [action]; decide)
    | unknown unknown entry =>
      exact old r rfl (fun action => unknown (Or.inl action))
  · rw [refused_serve pool q granted] at left
    exact represents_snoc_other (represented q.key r left) (fun _ get => granted get.2)

theorem represented_step {h : List (ServerEvent δ)} {pool : Pool δ} (q : Request δ)
    (represented : Represented h pool) :
    Represented (h ++ [event serve pool q]) (serve pool q).2 := by
  intro k r left
  by_cases here : q.key = k
  · subst here
    exact represented_here represented q left
  · rw [serve_elsewhere pool q here] at left
    exact represents_snoc_other (represented k r left) (fun same => False.elim (here same))

theorem represented_run (qs : List (Request δ)) :
    Represented (trace serve emptyPool qs) (final serve emptyPool qs) := by
  refine history_invariant serve Represented emptyPool ?_ ?_ qs
  · intro k r present
    cases present
  · intro h pool q represented
    exact represented_step q represented

theorem lastGet_transactionId {qs : List (Request δ)} {k : Bytes} {t : Option Bytes}
    (last : LastGet (trace serve emptyPool qs) k t) : ∃ q ∈ qs, q.transactionId = t := by
  obtain ⟨pre, g, mid, split, ⟨-, own⟩, -⟩ := last
  have member : g ∈ eventsFor k (trace serve emptyPool qs) := by
    rw [split]
    exact List.mem_append_right _ List.mem_cons_self
  obtain ⟨qs₁, qs₂, hqs, -⟩ := mem_trace serve (mem_eventsFor.mp member).1
  exact ⟨g.input, by simp [hqs], own⟩

/-- Every entry of a reachable pool is kept under its own key, and is either
reserved, with its reservation dated and by the transaction of the last granted
`GET` for the key, or given back, with no owner and no reservation date and
with its unreservation dated. When every request has a transaction id, as those
have whose resource the constructor built, the reserved entries are those with
an owner. -/
theorem pool_representation (qs : List (Request δ)) :
    (∀ k r, final serve emptyPool qs k = some r →
      (∃ i, r.resourceIdentifier = some i ∧ mergedKey i = k) ∧
      (r.reserved = true ∧ LastGet (trace serve emptyPool qs) k r.transactionId ∧
          r.reservationDate ≠ none ∧ r.reservationTime ≠ none ∨
        r.reserved = false ∧ r.transactionId = none ∧ r.reservationDate = none ∧
          r.reservationTime = none ∧ r.unreservationDate ≠ none ∧
          r.unreservationTime ≠ none)) ∧
    ((∀ q ∈ qs, q.transactionId ≠ none) → ∀ k r, final serve emptyPool qs k = some r →
      (r.reserved = true ↔ r.transactionId ≠ none)) := by
  have represented := represented_run qs
  constructor
  · intro k r present
    obtain ⟨keyed, ⟨held, last⟩ | idle⟩ := represented k r present
    · exact ⟨keyed, Or.inl ⟨held.reserved, last, held.reservationDate, held.reservationTime⟩⟩
    · exact ⟨keyed, Or.inr ⟨idle.reserved, idle.transactionId, idle.reservationDate,
        idle.reservationTime, idle.unreservationDate, idle.unreservationTime⟩⟩
  · intro named k r present
    obtain ⟨-, ⟨held, last⟩ | idle⟩ := represented k r present
    · obtain ⟨q, member, own⟩ := lastGet_transactionId last
      have owner : r.transactionId ≠ none := own ▸ named q member
      exact iff_of_true held.reserved owner
    · have free : ¬ r.reserved = true := by simp [idle.reserved]
      exact iff_of_false free (fun owner => owner idle.transactionId)

end PoolInvariant
