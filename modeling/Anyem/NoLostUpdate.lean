import Anyem.Reservations
import Mathlib.Logic.Relation

/-!
# No update is lost

Clients work on one variable in rounds: `GET` until it is answered `SUCCESS`
with a value, compute a new value from it, and `PUT` that one with the same
transaction id. The server takes their requests in any order, mixed with other
requests that do not end a reservation. The invariant ties the holder, the
value the holder was given and the stored value together.
-/

namespace NoLostUpdate

open Resource ResourceHolder ResourceManager PoolCells Reservations

variable {C δ : Type}

/-- Where a client stands in its round. -/
inductive Phase (δ : Type) where
  | idle
  | holding (transactionId : Option Bytes) (value : δ)

/-- The server and its clients. What the variable started with and the updates
that were served are recorded beside them. -/
structure System (C δ : Type) where
  pool : Pool δ
  phase : C → Phase δ
  initial : Option δ
  served : List (δ → δ)

/-- Every client is idle, and the variable has the data of the pool, if any. -/
def System.start (pool : Pool δ) (k : Bytes) : System C δ where
  pool := pool
  phase := fun _ => .idle
  initial := (pool k).map ResourceImpl.data
  served := []

/-- Updates applied in the order in which they were served. -/
def compose (served : List (δ → δ)) (initial : δ) : δ :=
  served.foldl (fun v f => f v) initial

theorem compose_snoc (served : List (δ → δ)) (f : δ → δ) (initial : δ) :
    compose (served ++ [f]) initial = f (compose served initial) := by
  simp [compose]

/-- A request that is not part of a round: on another key, or a `READ`, a `PUT`
or a `RELEASE` of `k` whose transaction does not hold `k` at that moment. -/
def Stray (k : Bytes) (pool : Pool δ) (q : Request δ) : Prop :=
  q.key ≠ k ∨ q.action = IResourceHolder.read ∨
    Closing q.action ∧ ¬ ReservedBy pool k q.transactionId

/-- One request at the server. The transaction ids of the `GET`s are free, so
fresh ones are among them. -/
inductive Step [DecidableEq C] (k : Bytes) : System C δ → System C δ → Prop where
  | getGranted (s : System C δ) (c : C) (q : Request δ) (r : ResourceImpl δ)
      (idle : s.phase c = .idle) (key : q.key = k) (action : q.action = IResourceHolder.get)
      (granted : Success (serve s.pool q).1) (carried : (serve s.pool q).1.resource = some r) :
      Step k s
        { pool := (serve s.pool q).2
          phase := Function.update s.phase c (.holding q.transactionId r.data)
          initial := if (s.pool k).isSome then s.initial else some q.data
          served := s.served }
  | getRefused (s : System C δ) (c : C) (q : Request δ) (idle : s.phase c = .idle)
      (key : q.key = k) (action : q.action = IResourceHolder.get)
      (refused : Refused (serve s.pool q).1) :
      Step k s { s with pool := (serve s.pool q).2 }
  | put (s : System C δ) (c : C) (q : Request δ) (v : δ) (f : δ → δ)
      (holding : s.phase c = .holding q.transactionId v) (key : q.key = k)
      (action : q.action = IResourceHolder.put) (data : q.data = f v) :
      Step k s
        { pool := (serve s.pool q).2
          phase := Function.update s.phase c .idle
          initial := s.initial
          served := s.served ++ [f] }
  | stray (s : System C δ) (q : Request δ) (harmless : Stray k s.pool q) :
      Step k s { s with pool := (serve s.pool q).2 }

/-- A holding client holds the entry, and was given the stored value. -/
def Holds (pool : Pool δ) (k : Bytes) (t : Option Bytes) (v : δ) : Prop :=
  ∃ r, pool k = some r ∧ r.reserved = true ∧ r.transactionId = t ∧ r.data = v

theorem Holds.reservedBy {pool : Pool δ} {k : Bytes} {t : Option Bytes} {v : δ}
    (holds : Holds pool k t v) : ReservedBy pool k t := by
  obtain ⟨r, present, held, own, -⟩ := holds
  exact ⟨r, present, held, own⟩

structure Consistent (k : Bytes) (s : System C δ) : Prop where
  value : (s.pool k).map ResourceImpl.data = s.initial.map (compose s.served)
  unserved : s.pool k = none → s.served = []
  holder : ∀ c t v, s.phase c = .holding t v → Holds s.pool k t v
  single : ∀ c c' t t' v v', s.phase c = .holding t v → s.phase c' = .holding t' v' → c = c'

section Steps

variable {k : Bytes} {s : System C δ}

theorem stray_unchanged {pool : Pool δ} {q : Request δ} (harmless : Stray k pool q) :
    (serve pool q).2 k = pool k := by
  by_cases here : q.key = k
  · subst here
    rcases harmless with other | action | ⟨closing, foreign⟩
    · exact False.elim (other rfl)
    · by_cases granted : Success (serve pool q).1
      · obtain ⟨r, present, -, left⟩ := read_granted action granted
        rw [left, present]
      · rw [refused_serve pool q granted]
    · have refused : ¬ Success (serve pool q).1 :=
        fun granted => foreign (closing_reserved closing granted)
      rw [refused_serve pool q refused]
  · exact serve_elsewhere pool q here

theorem consistent_start {pool : Pool δ} : Consistent k (System.start pool k : System C δ) where
  value := by
    change (pool k).map ResourceImpl.data = ((pool k).map ResourceImpl.data).map (compose [])
    cases pool k with
    | none => rfl
    | some r => rfl
  unserved := fun _ => rfl
  holder := by
    intro c t v holding
    cases holding
  single := by
    intro c c' t t' v v' holding
    cases holding

/-- A pool that keeps the entry at `k` keeps everything. -/
theorem Consistent.of_same_entry (consistent : Consistent k s) {pool : Pool δ}
    (same : pool k = s.pool k) : Consistent k { s with pool := pool } where
  value := by
    change (pool k).map ResourceImpl.data = _
    rw [same]
    exact consistent.value
  unserved := by
    intro missing
    change pool k = none at missing
    rw [same] at missing
    exact consistent.unserved missing
  holder := by
    intro c t v holding
    obtain ⟨r, present, rest⟩ := consistent.holder c t v holding
    exact ⟨r, same.trans present, rest⟩
  single := consistent.single

/-- The `PUT` of a holding client is granted. -/
theorem Consistent.put_success (consistent : Consistent k s) {c : C} {q : Request δ} {v : δ}
    (holding : s.phase c = .holding q.transactionId v) (key : q.key = k)
    (action : q.action = IResourceHolder.put) : Success (serve s.pool q).1 := by
  have reserved := (consistent.holder c _ v holding).reservedBy
  rw [← key] at reserved
  exact closing_granted reserved (Or.inl action)

variable [DecidableEq C]

theorem Consistent.get (consistent : Consistent k s) {c : C} {q : Request δ}
    {r : ResourceImpl δ} (key : q.key = k) (action : q.action = IResourceHolder.get)
    (granted : Success (serve s.pool q).1) (carried : (serve s.pool q).1.resource = some r) :
    Consistent k
      { pool := (serve s.pool q).2
        phase := Function.update s.phase c (.holding q.transactionId r.data)
        initial := if (s.pool k).isSome then s.initial else some q.data
        served := s.served } := by
  subst key
  obtain ⟨found, came, free, handed, left⟩ := get_granted action granted
  have same : found.reservedBy q.transactionId q.clock = r :=
    Option.some.inj (handed.symm.trans carried)
  -- The entry was free, so no client was holding it.
  have nobody : ∀ c t v, s.phase c ≠ .holding t v := by
    intro c t v holding
    exact get_refused (consistent.holder c t v holding).reservedBy action granted
  have only : ∀ c' t v,
      Function.update s.phase c (.holding q.transactionId r.data) c' = .holding t v →
      c' = c ∧ t = q.transactionId ∧ v = r.data := by
    intro c' t v holding
    by_cases taker : c' = c
    · subst taker
      rw [Function.update_self] at holding
      cases holding
      exact ⟨rfl, rfl, rfl⟩
    · rw [Function.update_of_ne taker] at holding
      exact False.elim (nobody c' t v holding)
  refine ⟨?_, ?_, ?_, ?_⟩
  · change ((serve s.pool q).2 q.key).map ResourceImpl.data = _
    rw [left]
    rcases came with present | ⟨missing, rfl⟩
    · have value := consistent.value
      rw [present] at value
      simp only [present, Option.isSome_some, if_true]
      exact value
    · simp only [missing, Option.isSome_none, Bool.false_eq_true, if_false,
        consistent.unserved missing]
      rfl
  · intro missing
    cases left.symm.trans missing
  · intro c' t v holding
    obtain ⟨-, rfl, rfl⟩ := only c' t v holding
    exact ⟨_, left, rfl, rfl, by rw [same]⟩
  · intro c₁ c₂ t₁ t₂ v₁ v₂ first second
    exact (only c₁ t₁ v₁ first).1.trans (only c₂ t₂ v₂ second).1.symm

theorem Consistent.put (consistent : Consistent k s) {c : C} {q : Request δ} {v : δ}
    {f : δ → δ} (holding : s.phase c = .holding q.transactionId v) (key : q.key = k)
    (action : q.action = IResourceHolder.put) (data : q.data = f v) :
    Consistent k
      { pool := (serve s.pool q).2
        phase := Function.update s.phase c .idle
        initial := s.initial
        served := s.served ++ [f] } := by
  have granted := consistent.put_success holding key action
  subst key
  obtain ⟨r, present, -, -, -, left⟩ := put_granted action granted
  have given : r.data = v := by
    obtain ⟨r', present', -, -, given⟩ := consistent.holder c _ v holding
    have same : r = r' := Option.some.inj (present.symm.trans present')
    rw [same, given]
  have nobody : ∀ c' t' v', Function.update s.phase c .idle c' ≠ .holding t' v' := by
    intro c' t' v' holding'
    by_cases putter : c' = c
    · subst putter
      rw [Function.update_self] at holding'
      cases holding'
    · rw [Function.update_of_ne putter] at holding'
      exact putter (consistent.single c' c _ _ _ _ holding' holding)
  refine ⟨?_, ?_, ?_, ?_⟩
  · change ((serve s.pool q).2 q.key).map ResourceImpl.data = _
    have value := consistent.value
    rw [present] at value
    cases hinitial : s.initial with
    | none =>
      rw [hinitial] at value
      cases value
    | some d =>
      rw [hinitial] at value
      have stored : v = compose s.served d := by
        rw [← given]
        exact Option.some.inj value
      rw [left, Option.map_some, Option.map_some, compose_snoc, ← stored, ← data]
  · intro missing
    cases left.symm.trans missing
  · intro c' t' v' holding'
    exact False.elim (nobody c' t' v' holding')
  · intro c₁ c₂ t₁ t₂ v₁ v₂ first
    exact False.elim (nobody c₁ t₁ v₁ first)

theorem consistent_step {s' : System C δ} (consistent : Consistent k s) (step : Step k s s') :
    Consistent k s' := by
  cases step with
  | getGranted c q r idle key action granted carried =>
    exact consistent.get key action granted carried
  | getRefused c q idle key action refused =>
    have unchanged := refused_serve s.pool q ((serve_refused_iff s.pool q).mp refused)
    exact consistent.of_same_entry (by rw [unchanged])
  | put c q v f holding key action data => exact consistent.put holding key action data
  | stray q harmless => exact consistent.of_same_entry (stray_unchanged harmless)

theorem consistent_run {pool : Pool δ} (run : Relation.ReflTransGen (Step k)
    (System.start pool k) s) : Consistent k s := by
  induction run with
  | refl => exact consistent_start
  | tail _ step consistent => exact consistent_step consistent step

end Steps

theorem compose_increment {num : ℤ → δ} {increment : δ → δ}
    (adds : ∀ n, increment (num n) = num (n + 1)) {served : List (δ → δ)}
    (all : ∀ f ∈ served, f = increment) (n : ℤ) :
    compose served (num n) = num (n + served.length) := by
  induction served using List.reverseRecOn with
  | nil => simp [compose]
  | append_singleton served f ih =>
    have last : f = increment := all f (by simp)
    have before : ∀ g ∈ served, g = increment := fun g member => all g (by simp [member])
    rw [compose_snoc, ih before, last, adds]
    congr 1
    simp only [List.length_append, List.length_singleton]
    omega

/-- In every order of requests every holder's `PUT` is answered `SUCCESS`, and
the stored data are the initial data with the updates of all served `PUT`s
applied in their order. When every update adds one, the stored number is the
initial one plus the number of rounds. -/
theorem no_lost_update [DecidableEq C] (k : Bytes) (pool : Pool δ) (s : System C δ)
    (run : Relation.ReflTransGen (Step k) (System.start pool k) s) :
    (∀ (c : C) (q : Request δ) (v : δ), s.phase c = .holding q.transactionId v → q.key = k →
      q.action = IResourceHolder.put → Success (serve s.pool q).1) ∧
    (s.pool k).map ResourceImpl.data = s.initial.map (compose s.served) ∧
    ∀ (num : ℤ → δ) (increment : δ → δ), (∀ n, increment (num n) = num (n + 1)) →
      (∀ f ∈ s.served, f = increment) → ∀ n, s.initial = some (num n) →
      (s.pool k).map ResourceImpl.data = some (num (n + s.served.length)) := by
  have consistent := consistent_run run
  refine ⟨?_, consistent.value, ?_⟩
  · intro c q v holding key action
    exact consistent.put_success holding key action
  · intro num increment adds all n initial
    rw [consistent.value, initial, Option.map_some, compose_increment adds all]

/-- Two clients take turns at a new variable with value 5; the second one's
first `GET` is refused while the first one is at work. -/
theorem two_rounds_counted :
    ∃ s : System Bool Nat, s.served.length = 2 ∧
      (s.pool (sampleRequest IResourceHolder.get "" 0).key).map ResourceImpl.data = some 7 := by
  let k : Bytes := (sampleRequest IResourceHolder.get "" 0).key
  let q₁ : Request Nat := sampleRequest IResourceHolder.get "first" 5
  let q₂ : Request Nat := sampleRequest IResourceHolder.get "second" 5
  let q₃ : Request Nat := sampleRequest IResourceHolder.put "first" 6
  let q₄ : Request Nat := sampleRequest IResourceHolder.get "third" 5
  let q₅ : Request Nat := sampleRequest IResourceHolder.put "third" 7
  let r₁ : ResourceImpl Nat := q₁.resource.reservedBy q₁.transactionId q₁.clock
  let r₂ : ResourceImpl Nat :=
    { r₁.unreserved q₃.clock with data := 6 }.reservedBy q₄.transactionId q₄.clock
  let s₀ : System Bool Nat := System.start emptyPool k
  have run : Relation.ReflTransGen (Step k) s₀ _ :=
    ((((Relation.ReflTransGen.refl.tail
      (.getGranted s₀ true q₁ r₁ rfl rfl rfl (by decide) (by decide))).tail
      (.getRefused _ false q₂ rfl rfl rfl (by decide))).tail
      (.put _ true q₃ 5 (· + 1) rfl rfl rfl rfl)).tail
      (.getGranted _ false q₄ r₂ rfl rfl rfl (by decide) (by decide))).tail
      (.put _ false q₅ 6 (· + 1) rfl rfl rfl rfl)
  have law := (no_lost_update k emptyPool _ run).2.1
  exact ⟨_, rfl, law⟩

end NoLostUpdate
