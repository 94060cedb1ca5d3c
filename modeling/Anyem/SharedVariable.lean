import Anyem.ConcurrentCalls
import Mathlib.Data.Fintype.BigOperators

/-!
# Programs that share one variable

Programs of the test get one variable and put it back incremented, or read it.
Whatever their loops look like, an attempt does one of a few things to the
variable, and who got it keeps the others out until it puts it back. So the data
at any time are those at the start, incremented once for every turn that was not
lost, and who reads finds them incremented more and more often. Of a kind of
programs this asks only what each one does next and how it goes on.
-/

namespace IncrementThreads

open Resource ResourceHolder PoolCells

variable {δ : Type}

/-- The constants of the test, and PHP's `++` on what `getData` returns. -/
structure Test (δ : Type) where
  totalIteration : ℕ
  maxAttempt : ℤ
  zero : δ
  increment : Option δ → δ
  identifier : ResourceIdentifierImpl

section Values

variable (test : Test δ)

def key : Bytes := mergedKey test.identifier

/-- The data of the variable; a missing one counts as 0. -/
def valueAt (pool : Pool (Option δ)) : Option δ :=
  match pool (key test) with
  | none => some test.zero
  | some entry => entry.data

def incremented (d : Option δ) : Option δ := some (test.increment d)

end Values

end IncrementThreads

namespace SharedVariable

open AtomicObjects ThrowingMethods Resource ResourceHolder ResourceManager PoolCells
  Reservations Client Finishing ConcurrentCalls IncrementThreads

variable {C T δ : Type}

/-- The reservation of the client stands, around what it got. -/
def Held (test : Test δ) (entry : Option (ResourceImpl (Option δ)))
    (this : ClientImpl δ) (d : Option δ) : Prop :=
  ∃ e r, entry = some e ∧ e.reserved = true ∧ e.data = d ∧
    this.resource = some r ∧ r.transactionId = e.transactionId ∧
    r.resourceIdentifier = some test.identifier

section Effects

variable [DecidableEq C] {test : Test δ} {uniqid : ℕ → Bytes} {v v' : Central C δ} {c : C}
  {o : Outcome δ} {a : δ} {d : Option δ} {m : Option ℤ}

/-- A `get` alone holds a variable that is free; else it changes nothing. -/
theorem alone_get (identified : (v.client c).resourceIdentifier = test.identifier)
    (absent : v.pool (key test) = none → a = test.zero)
    (now : Alone uniqid v c ⟨.get (some a), m⟩ o v') :
    ∃ response pool this used, o = finish ⟨.get (some a), m⟩ response ∧
      v' = ⟨pool, Function.update v.client c this, used⟩ ∧
      this.resourceIdentifier = test.identifier ∧
      ((Success response ∧ (∀ e, v.pool (key test) = some e → e.reserved = false) ∧
          valueAt test pool = valueAt test v.pool ∧
          ∃ r, response.resource = some r ∧ Held test (pool (key test)) this r.data) ∨
        (Refused response ∧ response.resource = none ∧ pool = v.pool)) := by
  obtain ⟨n, clock, rfl, rfl⟩ := now.request
    (fun n clock => Request.build IResourceHolder.get test.identifier (uniqid n) (some a) clock)
    (fun n => ⟨test.identifier,
      some (ResourceImpl.construct (some test.identifier) (some a) (uniqid n))⟩)
    (fun _ _ => rfl) (by
      intro n clock
      rw [← identified]
      rfl)
  generalize sent : Request.build IResourceHolder.get test.identifier (uniqid n) (some a) clock = q
  refine ⟨_, _, _, _, rfl, rfl, rfl, ?_⟩
  by_cases granted : Success (serve v.pool q).1
  · subst sent
    obtain ⟨r, found, free, carried, left⟩ := get_granted rfl granted
    have there : (serve v.pool _).2 (key test) = some (r.reservedBy _ _) := left
    refine Or.inl ⟨granted, ?_, ?_, _, carried, _, _, there, rfl, rfl, rfl, rfl, rfl⟩
    · intro e present
      rcases found with here | ⟨missing, -⟩
      · cases present.symm.trans here
        exact free
      · cases present.symm.trans missing
    · rw [valueAt, valueAt, there]
      rcases found with here | ⟨missing, rfl⟩
      · rw [show v.pool (key test) = some r from here]
        rfl
      · rw [show v.pool (key test) = none from missing]
        exact congrArg some (absent missing)
  · obtain ⟨message, -, reply⟩ := refused_outcome v.pool q granted
    refine Or.inr ⟨(serve_refused_iff v.pool q).mpr granted, ?_, refused_serve v.pool q granted⟩
    rw [reply]

/-- A `put` alone of who holds the variable frees it with the data. -/
theorem alone_put (identified : (v.client c).resourceIdentifier = test.identifier)
    (held : Held test (v.pool (key test)) (v.client c) d)
    (now : Alone uniqid v c ⟨.put (some a), m⟩ o v') :
    ∃ response pool this used, o = .returned response ∧
      v' = ⟨pool, Function.update v.client c this, used⟩ ∧
      this.resourceIdentifier = test.identifier ∧
      ∃ e, pool (key test) = some e ∧ e.reserved = false ∧ e.data = some a := by
  obtain ⟨e, r, present, reserved, -, kept, own, named⟩ := held
  obtain ⟨n, clock, rfl, rfl⟩ := now.request
    (fun _ clock =>
      ⟨IResourceHolder.put, { r with data := some a }, test.identifier, named, clock⟩)
    (fun _ => ⟨test.identifier, some { r with data := some a }⟩) (fun _ _ => rfl) (by
      intro n clock
      generalize v.client c = this at kept identified
      obtain ⟨identifier, resource⟩ := this
      cases kept
      cases identified
      rfl)
  let q : Request (Option δ) :=
    ⟨IResourceHolder.put, { r with data := some a }, test.identifier, named, clock⟩
  have holds : ReservedBy v.pool q.key q.transactionId := ⟨e, present, reserved, own.symm⟩
  have granted : Success (serve v.pool q).1 := closing_granted holds (.inl rfl)
  obtain ⟨e', -, -, -, -, left⟩ := put_granted rfl granted
  exact ⟨_, _, _, _, finish_success granted, rfl, rfl, _, left, rfl, rfl⟩

/-- A `read` alone returns the data as they are, if there is a variable. -/
theorem alone_read (identified : (v.client c).resourceIdentifier = test.identifier)
    (now : Alone uniqid v c ⟨.read, m⟩ o v') :
    ∃ response this used, o = finish ⟨.read, m⟩ response ∧
      v' = ⟨v.pool, Function.update v.client c this, used⟩ ∧
      this.resourceIdentifier = test.identifier ∧
      ∀ r, response.resource = some r → r.data = valueAt test v.pool := by
  obtain ⟨n, clock, rfl, rfl⟩ := now.request
    (fun n clock => Request.build IResourceHolder.read test.identifier (uniqid n) none clock)
    (fun n => ⟨test.identifier,
      some (ResourceImpl.construct (some test.identifier) none (uniqid n))⟩)
    (fun _ _ => rfl) (by
      intro n clock
      rw [← identified]
      rfl)
  let q : Request (Option δ) :=
    Request.build IResourceHolder.read test.identifier (uniqid n) none clock
  have unchanged : (serve v.pool q).2 = v.pool := by
    refine serve_unchanged v.pool q ?_
    rw [outcome_read _ rfl]
    cases v.pool q.key <;> rfl
  refine ⟨(serve v.pool q).1, _, _, rfl,
    congrArg (fun pool => (⟨pool, _, _⟩ : Central C δ)) unchanged, rfl, ?_⟩
  intro r carried
  have granted : Success (serve v.pool q).1 := by
    by_contra refused
    obtain ⟨message, -, reply⟩ := refused_outcome v.pool q refused
    rw [reply] at carried
    cases carried
  obtain ⟨r', present, carried', -⟩ := read_granted rfl granted
  cases carried'.symm.trans carried
  rw [valueAt, show v.pool (key test) = some r from present]

end Effects

section Order

variable (test : Test δ) (start : Option δ)

/-- The data are those at the start, incremented more and more often, and at
most `n` times. -/
def Grows (n : ℕ) (data : List (Option δ)) : Prop :=
  ∃ counts : List ℕ, data = counts.map (fun m => (incremented test)^[m] start) ∧
    counts.Pairwise (· ≤ ·) ∧ ∀ m ∈ counts, m ≤ n

variable {test start} {n m : ℕ} {data : List (Option δ)}

theorem Grows.nil : Grows test start n [] :=
  ⟨[], rfl, List.Pairwise.nil, fun m member => by cases member⟩

theorem Grows.mono (grows : Grows test start n data) (atMost : n ≤ m) :
    Grows test start m data := by
  obtain ⟨counts, same, sorted, bounded⟩ := grows
  exact ⟨counts, same, sorted, fun k member => (bounded k member).trans atMost⟩

theorem Grows.snoc (grows : Grows test start n data) :
    Grows test start n (data ++ [(incremented test)^[n] start]) := by
  obtain ⟨counts, rfl, sorted, bounded⟩ := grows
  refine ⟨counts ++ [n], by simp, ?_, ?_⟩
  · rw [List.pairwise_append]
    refine ⟨sorted, List.pairwise_singleton _ n, ?_⟩
    intro k member l last
    rw [List.mem_singleton.mp last]
    exact bounded k member
  · intro k member
    rcases List.mem_append.mp member with before | last
    · exact bounded k before
    · exact (List.mem_singleton.mp last).le

end Order

section Kinds

/-- What a program does with the variable in its next call. -/
inductive Task where
  | gets
  | puts
  | reads
  | nothing
  deriving DecidableEq

/-- A kind of programs: the calls that they make, and what is followed of each.
`get` sends `initial`, for a variable that is not there, and `put` sends `a`. Of
the turns that are over some are lost, and left the variable as it was. -/
structure Kind (C T δ : Type) where
  program : Program T (Invocation δ) (Outcome δ)
  task : T → Task
  maxAttempt : Option ℤ
  initial : T → δ
  a : T → δ
  turns : T → ℕ
  lost : T → ℕ
  printed : T → List (Option δ)
  /-- What holds between two calls. -/
  Rests : C → T → Prop
  /-- What holds in a call. -/
  Calls : C → T → Prop

/-- The resource that a call returned. -/
def given : Outcome δ → Option (ResourceImpl (Option δ))
  | .returned response => response.resource
  | _ => none

namespace Kind

variable (kind : Kind C T δ)

def invocation (t : T) : Option (Invocation δ) :=
  match kind.task t with
  | .gets => some ⟨.get (some (kind.initial t)), kind.maxAttempt⟩
  | .puts => some ⟨.put (some (kind.a t)), none⟩
  | .reads => some ⟨.read, none⟩
  | .nothing => none

/-- What the calls can end with. Without retries a refused `get` returns a
response without a resource. -/
def Ends (t : T) (o : Outcome δ) : Prop :=
  match kind.task t, o with
  | .gets, .returned response => response.resource = none → kind.maxAttempt = none
  | .gets, .gaveUp => kind.maxAttempt ≠ none
  | .puts, .returned _ => True
  | .reads, .returned _ => True
  | _, _ => False

/-- The program is between the effect of a granted `get` and that of its `put`. -/
def Inside (t : T) : Stage (Invocation δ) (Outcome δ) → Prop
  | .done o => kind.task t = .gets ∧ given o ≠ none
  | _ => kind.task t = .puts

/-- The turns whose effect on the variable is over. -/
def turned (t : T) : Stage (Invocation δ) (Outcome δ) → ℕ
  | .done _ => if kind.task t = .puts then kind.turns t + 1 else kind.turns t
  | _ => kind.turns t

/-- The data that were printed, and those that will be next. -/
def shown (t : T) : Stage (Invocation δ) (Outcome δ) → List (Option δ)
  | .done o =>
    if kind.task t = .reads then kind.printed t ++ ((given o).map ResourceImpl.data).toList
    else kind.printed t
  | _ => kind.printed t

/-- How a program goes on after a call. -/
structure Resumed (test : Test δ) (c : C) (t : T) (o : Outcome δ) (t' : T) : Prop where
  rests : kind.Rests c t'
  puts : kind.task t' = .puts ↔ kind.task t = .gets ∧ given o ≠ none
  computed : kind.task t = .gets → ∀ r, given o = some r → kind.a t' = test.increment r.data
  turned : kind.turns t' + kind.lost t = kind.turned t (.done o) + kind.lost t'
  printed : kind.printed t' = kind.shown t (.done o)
  initial : given o = none ∨ kind.task t ≠ .gets → kind.initial t' = kind.initial t

/-- What each program of the kind keeps by itself. -/
structure Laws (test : Test δ) : Prop where
  begins : ∀ {c t i}, kind.Rests c t → kind.program.next t = some i →
    kind.invocation t = some i ∧ kind.Calls c t
  resumes : ∀ {c t o}, kind.Calls c t → kind.Ends t o →
    kind.Resumed test c t o (kind.program.resume t o)

def Stands (c : C) (t : T) : Stage (Invocation δ) (Outcome δ) → Prop
  | .idle => kind.Rests c t
  | .invoked i => kind.Calls c t ∧ kind.invocation t = some i
  | .done o => kind.Calls c t ∧ kind.Ends t o

/-- Who is inside holds the variable, and will put back what it got, incremented. -/
def Holds (test : Test δ) (entry : Option (ResourceImpl (Option δ))) (this : ClientImpl δ) (t : T) :
    Stage (Invocation δ) (Outcome δ) → Prop
  | .done o => kind.task t = .gets → ∀ r, given o = some r → Held test entry this r.data
  | _ => kind.task t = .puts → ∃ d, Held test entry this d ∧ kind.a t = test.increment d

theorem shown_printed (t : T) (stage : Stage (Invocation δ) (Outcome δ)) :
    ∃ more, kind.shown t stage = kind.printed t ++ more := by
  cases stage with
  | idle => exact ⟨[], (List.append_nil _).symm⟩
  | invoked i => exact ⟨[], (List.append_nil _).symm⟩
  | done o =>
    rw [shown]
    split
    · exact ⟨_, rfl⟩
    · exact ⟨[], (List.append_nil _).symm⟩

variable {kind} {test : Test δ} {entry : Option (ResourceImpl (Option δ))} {this : ClientImpl δ}
  {t : T} {stage : Stage (Invocation δ) (Outcome δ)}

theorem Holds.held (holds : kind.Holds test entry this t stage) (inside : kind.Inside t stage) :
    ∃ d, Held test entry this d := by
  cases stage with
  | idle =>
    obtain ⟨d, held, -⟩ := holds inside
    exact ⟨d, held⟩
  | invoked i =>
    obtain ⟨d, held, -⟩ := holds inside
    exact ⟨d, held⟩
  | done o =>
    obtain ⟨gets, got⟩ := inside
    obtain ⟨r, got⟩ := Option.ne_none_iff_exists'.mp got
    exact ⟨r.data, holds gets r got⟩

/-- Who is outside is not concerned by the entry. -/
theorem holds_of_outside (outside : ¬ kind.Inside t stage) :
    kind.Holds test entry this t stage := by
  cases stage with
  | idle => exact fun inside => False.elim (outside inside)
  | invoked i => exact fun inside => False.elim (outside inside)
  | done o =>
    intro gets r got
    refine False.elim (outside ⟨gets, ?_⟩)
    rw [got]
    exact Option.some_ne_none r

end Kind

theorem given_finish {invocation : Invocation δ} {response : ResponseWrapperImpl (Option δ)}
    (nothing : response.resource = none) : given (finish invocation response) = none := by
  rw [finish]
  split
  · rfl
  · exact nothing

end Kinds

section Counting

variable [DecidableEq C]

theorem sum_change [Fintype C] {f g : C → ℕ} (c : C) (others : ∀ c', c' ≠ c → g c' = f c') :
    ∑ c, g c + f c = ∑ c, f c + g c := by
  have rest : ∑ c' ∈ Finset.univ.erase c, g c' = ∑ c' ∈ Finset.univ.erase c, f c' := by
    apply Finset.sum_congr rfl
    intro c' member
    exact others c' (Finset.ne_of_mem_erase member)
  have sumG := Finset.add_sum_erase Finset.univ g (Finset.mem_univ c)
  have sumF := Finset.add_sum_erase Finset.univ f (Finset.mem_univ c)
  omega

/-- Only one is inside still, when one that comes in finds nobody else there. -/
theorem single_change {before after : C → Prop} (c : C)
    (others : ∀ c', c' ≠ c → after c' → before c') (single : ∀ c c', before c → before c' → c = c')
    (enters : after c → before c ∨ ∀ c', c' ≠ c → ¬ before c') (c₁ c₂ : C)
    (inside₁ : after c₁) (inside₂ : after c₂) : c₁ = c₂ := by
  have only : ∀ c', c' ≠ c → after c' → ¬ after c := by
    intro c' other inside entered
    rcases enters entered with here | vacant
    · exact other (single c' c (others c' other inside) here)
    · exact vacant c' other (others c' other inside)
  by_cases here₁ : c₁ = c
  · subst here₁
    by_contra apart
    exact only c₂ (Ne.symm apart) inside₂ inside₁
  · by_cases here₂ : c₂ = c
    · subst here₂
      exact False.elim (only c₁ here₁ inside₁ inside₂)
    · exact single c₁ c₂ (others c₁ here₁ inside₁) (others c₂ here₂ inside₂)

/-- Two functions change at one place, and what held elsewhere still does. -/
theorem place_change {A B : Type} {P : C → A → B → Prop} {f : C → A} {g : C → B} {c : C} {x : A}
    {y : B} (here : P c x y) (others : ∀ c', c' ≠ c → P c' (f c') (g c')) (c' : C) :
    P c' (Function.update f c x c') (Function.update g c y c') := by
  by_cases same : c' = c
  · subst same
    rw [Function.update_self, Function.update_self]
    exact here
  · rw [Function.update_of_ne same, Function.update_of_ne same]
    exact others c' same

end Counting

section Sharing

variable [Fintype C]

/-- What holds of the programs, the clients and the pool, from the pool `first`. -/
structure Shared (kind : Kind C T δ) (test : Test δ) (first : Pool (Option δ))
    (stage : C → Stage (Invocation δ) (Outcome δ)) (v : Central C δ) (threads : C → T) :
    Prop where
  identified : ∀ c, (v.client c).resourceIdentifier = test.identifier
  stands : ∀ c, kind.Stands c (threads c) (stage c)
  holds : ∀ c, kind.Holds test (v.pool (key test)) (v.client c) (threads c) (stage c)
  single : ∀ c c', kind.Inside (threads c) (stage c) → kind.Inside (threads c') (stage c') → c = c'
  value : ∃ n, valueAt test v.pool = (incremented test)^[n] (valueAt test first) ∧
    ∑ c, kind.turned (threads c) (stage c) = n + ∑ c, kind.lost (threads c) ∧
    ∀ c, Grows test (valueAt test first) n (kind.shown (threads c) (stage c))
  free : (∀ e, first (key test) = some e → e.reserved = false) →
    (∀ c, ¬ kind.Inside (threads c) (stage c)) →
    ∀ e, v.pool (key test) = some e → e.reserved = false
  absent : v.pool (key test) = none → ∀ c, kind.initial (threads c) = test.zero

variable {kind : Kind C T δ} {test : Test δ} {first : Pool (Option δ)}
  {stage : C → Stage (Invocation δ) (Outcome δ)} {v : Central C δ} {threads : C → T}

/-- How a program starts. -/
structure Kind.Starts (kind : Kind C T δ) (test : Test δ) (c : C) (t : T) : Prop where
  rests : kind.Rests c t
  outside : kind.task t ≠ .puts
  turns : kind.turns t = 0
  lost : kind.lost t = 0
  printed : kind.printed t = []
  initial : kind.initial t = test.zero

theorem shared_start (starts : ∀ c, kind.Starts test c (threads c)) :
    Shared kind test first (fun _ => .idle) (Central.start first fun _ => test.identifier)
      threads where
  identified := fun c => rfl
  stands := fun c => (starts c).rests
  holds := fun c => Kind.holds_of_outside (starts c).outside
  single := fun c _ inside => False.elim ((starts c).outside inside)
  value := by
    refine ⟨0, rfl, ?_, ?_⟩
    · simp only [Kind.turned, (starts _).turns, (starts _).lost]
      omega
    · intro c
      simp only [Kind.shown, (starts c).printed]
      exact .nil
  free := fun idle _ => idle
  absent := fun _ c => (starts c).initial

variable (kind stage threads) in
/-- Nobody else is inside. -/
def Vacant (c : C) : Prop := ∀ c', c' ≠ c → ¬ kind.Inside (threads c') (stage c')

/-- The entry is free, so nobody is inside. -/
theorem Shared.nobody (shared : Shared kind test first stage v threads)
    (free : ∀ e, v.pool (key test) = some e → e.reserved = false) (c : C) :
    ¬ kind.Inside (threads c) (stage c) := by
  intro inside
  obtain ⟨d, e, r, present, reserved, -⟩ := (shared.holds c).held inside
  rw [free e present] at reserved
  cases reserved

variable [DecidableEq C] {c : C}

/-- The data after one program has moved: with `m` increments more, and perhaps
shown to it as they are. -/
theorem Shared.value_moves (shared : Shared kind test first stage v threads)
    {st : Stage (Invocation δ) (Outcome δ)} {t : T} {pool : Pool (Option δ)} {m : ℕ}
    (value : valueAt test pool = (incremented test)^[m] (valueAt test v.pool))
    (turned : kind.turned t st + kind.lost (threads c) =
      kind.turned (threads c) (stage c) + m + kind.lost t)
    (shown : kind.shown t st = kind.shown (threads c) (stage c) ∨
      kind.shown t st = kind.shown (threads c) (stage c) ++ [valueAt test pool]) :
    ∃ n, valueAt test pool = (incremented test)^[n] (valueAt test first) ∧
      ∑ c', kind.turned (Function.update threads c t c') (Function.update stage c st c') =
        n + ∑ c', kind.lost (Function.update threads c t c') ∧
      ∀ c', Grows test (valueAt test first) n
        (kind.shown (Function.update threads c t c') (Function.update stage c st c')) := by
  obtain ⟨n, before, sums, grows⟩ := shared.value
  have valued : valueAt test pool = (incremented test)^[m + n] (valueAt test first) := by
    rw [Function.iterate_add_apply, ← before]
    exact value
  refine ⟨m + n, valued, ?_, ?_⟩
  · have turns := sum_change (f := fun c => kind.turned (threads c) (stage c))
      (g := fun c' => kind.turned (Function.update threads c t c') (Function.update stage c st c'))
      c (fun c' other => by simp only [Function.update_of_ne other])
    have lost := sum_change (f := fun c => kind.lost (threads c))
      (g := fun c' => kind.lost (Function.update threads c t c')) c
      (fun c' other => by simp only [Function.update_of_ne other])
    simp only [Function.update_self] at turns lost
    omega
  · have later : ∀ c', Grows test (valueAt test first) (m + n)
        (kind.shown (threads c') (stage c')) := fun c' => (grows c').mono (Nat.le_add_left n m)
    refine place_change (P := fun _ t st => Grows test (valueAt test first) (m + n)
      (kind.shown t st)) ?_ fun c' _ => later c'
    rcases shown with nothing | last
    · rw [nothing]
      exact later c
    · rw [last, valued]
      exact (later c).snoc

/-- The entry is free after one program has moved, when nobody is inside. -/
theorem Shared.free_moves (shared : Shared kind test first stage v threads)
    {st : Stage (Invocation δ) (Outcome δ)} {t : T} {pool : Pool (Option δ)}
    (leaves : (∀ e, pool (key test) = some e → e.reserved = false) ∨ kind.Inside t st ∨
      pool (key test) = v.pool (key test) ∧ ¬ kind.Inside (threads c) (stage c))
    (idle : ∀ e, first (key test) = some e → e.reserved = false)
    (nobody : ∀ c', ¬ kind.Inside (Function.update threads c t c')
      (Function.update stage c st c')) :
    ∀ e, pool (key test) = some e → e.reserved = false := by
  have here := nobody c
  rw [Function.update_self, Function.update_self] at here
  rcases leaves with freed | inside | ⟨kept, outside⟩
  · exact freed
  · exact False.elim (here inside)
  · rw [kept]
    refine shared.free idle fun c' inside => ?_
    by_cases same : c' = c
    · subst same
      exact outside inside
    · refine nobody c' ?_
      rw [Function.update_of_ne same, Function.update_of_ne same]
      exact inside

/-- One program moves: the entry changes only when nobody else is inside. -/
theorem Shared.moves (shared : Shared kind test first stage v threads)
    {st : Stage (Invocation δ) (Outcome δ)} {t : T} {this : ClientImpl δ} {pool : Pool (Option δ)}
    {m : ℕ} (used : Set ℕ) (identified : this.resourceIdentifier = test.identifier)
    (stands : kind.Stands c t st) (holds : kind.Holds test (pool (key test)) this t st)
    (entry : pool (key test) = v.pool (key test) ∨ Vacant kind stage threads c)
    (enters : kind.Inside t st → kind.Inside (threads c) (stage c) ∨ Vacant kind stage threads c)
    (value : valueAt test pool = (incremented test)^[m] (valueAt test v.pool))
    (turned : kind.turned t st + kind.lost (threads c) =
      kind.turned (threads c) (stage c) + m + kind.lost t)
    (shown : kind.shown t st = kind.shown (threads c) (stage c) ∨
      kind.shown t st = kind.shown (threads c) (stage c) ++ [valueAt test pool])
    (leaves : (∀ e, pool (key test) = some e → e.reserved = false) ∨ kind.Inside t st ∨
      pool (key test) = v.pool (key test) ∧ ¬ kind.Inside (threads c) (stage c))
    (absent : pool (key test) = none →
      v.pool (key test) = none ∧ kind.initial t = kind.initial (threads c)) :
    Shared kind test first (Function.update stage c st)
      ⟨pool, Function.update v.client c this, used⟩ (Function.update threads c t) where
  identified := by
    rw [Function.forall_update_iff v.client fun _ this => this.resourceIdentifier = test.identifier]
    exact ⟨identified, fun c' _ => shared.identified c'⟩
  stands := place_change (P := kind.Stands) stands fun c' _ => shared.stands c'
  holds := by
    intro c'
    by_cases same : c' = c
    · subst same
      simp only [Function.update_self]
      exact holds
    · simp only [Function.update_of_ne same]
      rcases entry with kept | vacant
      · rw [kept]
        exact shared.holds c'
      · exact Kind.holds_of_outside (vacant c' same)
  single := by
    refine single_change c (fun c' other => ?_) shared.single ?_
    · simp only [Function.update_of_ne other, imp_self]
    · simp only [Function.update_self]
      exact enters
  value := shared.value_moves value turned shown
  free := shared.free_moves leaves
  absent := by
    intro missing
    obtain ⟨before, same⟩ := absent missing
    rw [Function.forall_update_iff threads fun _ t => kind.initial t = test.zero, same]
    exact ⟨shared.absent before c, fun c' _ => shared.absent before c'⟩

/-- A program moves and the variable stays as it is. -/
theorem Shared.stays (shared : Shared kind test first stage v threads)
    {st : Stage (Invocation δ) (Outcome δ)} {t : T} {this : ClientImpl δ} (used : Set ℕ)
    (identified : this.resourceIdentifier = test.identifier)
    (stands : kind.Stands c t st) (holds : kind.Holds test (v.pool (key test)) this t st)
    (inside : kind.Inside t st ↔ kind.Inside (threads c) (stage c))
    (turned : kind.turned t st + kind.lost (threads c) =
      kind.turned (threads c) (stage c) + kind.lost t)
    (shown : kind.shown t st = kind.shown (threads c) (stage c) ∨
      kind.shown t st = kind.shown (threads c) (stage c) ++ [valueAt test v.pool])
    (initial : v.pool (key test) = none → kind.initial t = kind.initial (threads c)) :
    Shared kind test first (Function.update stage c st)
      ⟨v.pool, Function.update v.client c this, used⟩ (Function.update threads c t) := by
  refine shared.moves used identified stands holds (.inl rfl) (fun here => .inl (inside.mp here))
    (m := 0) rfl turned shown ?_ fun missing => ⟨missing, initial missing⟩
  by_cases here : kind.Inside t st
  · exact .inr (.inl here)
  · exact .inr (.inr ⟨rfl, fun before => here (inside.mpr before)⟩)

/-- A program starts its next call. -/
theorem Shared.invoke (laws : kind.Laws test) (shared : Shared kind test first stage v threads)
    {i : Invocation δ} (idle : stage c = .idle) (asks : kind.program.next (threads c) = some i) :
    Shared kind test first (Function.update stage c (.invoked i)) v threads := by
  have stands := shared.stands c
  have holds := shared.holds c
  rw [idle] at stands holds
  obtain ⟨invokes, calls⟩ := laws.begins stands asks
  have moved : Shared kind test first (Function.update stage c (.invoked i))
      ⟨v.pool, Function.update v.client c (v.client c), v.used⟩
      (Function.update threads c (threads c)) := by
    refine shared.stays v.used (shared.identified c) ⟨calls, invokes⟩ holds ?_ ?_ (.inl ?_)
      fun _ => rfl
    · rw [idle]
      exact Iff.rfl
    · rw [idle]
      rfl
    · rw [idle]
      rfl
  rw [Function.update_eq_self, Function.update_eq_self] at moved
  exact moved

/-- A program goes on with what its call ended with. -/
theorem Shared.respond (laws : kind.Laws test) (shared : Shared kind test first stage v threads)
    {o : Outcome δ} (done : stage c = .done o) :
    Shared kind test first (Function.update stage c .idle) v
      (Function.update threads c (kind.program.resume (threads c) o)) := by
  have stands := shared.stands c
  have holds := shared.holds c
  rw [done] at stands holds
  obtain ⟨calls, ends⟩ := stands
  have resumed := laws.resumes calls ends
  have moved : Shared kind test first (Function.update stage c .idle)
      ⟨v.pool, Function.update v.client c (v.client c), v.used⟩
      (Function.update threads c (kind.program.resume (threads c) o)) := by
    refine shared.stays v.used (shared.identified c) resumed.rests ?_ ?_ ?_ (.inl ?_) ?_
    · intro puts
      obtain ⟨gets, got⟩ := resumed.puts.mp puts
      obtain ⟨r, got⟩ := Option.ne_none_iff_exists'.mp got
      exact ⟨r.data, holds gets r got, resumed.computed gets r got⟩
    · rw [done]
      exact resumed.puts
    · rw [done]
      exact resumed.turned
    · rw [done]
      exact resumed.printed
    · intro missing
      refine resumed.initial ?_
      by_contra here
      obtain ⟨got, gets⟩ := not_or.mp here
      obtain ⟨r, got⟩ := Option.ne_none_iff_exists'.mp got
      obtain ⟨e, -, present, -⟩ := holds (not_not.mp gets) r got
      cases missing.symm.trans present
  rw [Function.update_eq_self] at moved
  exact moved

section Effects

variable {uniqid : ℕ → Bytes} {o : Outcome δ} {v' : Central C δ}

/-- A `get` takes effect. -/
theorem Shared.effect_get (shared : Shared kind test first stage v threads)
    (gets : kind.task (threads c) = .gets)
    (invoked : stage c = .invoked ⟨.get (some (kind.initial (threads c))), kind.maxAttempt⟩)
    (now : Alone uniqid v c ⟨.get (some (kind.initial (threads c))), kind.maxAttempt⟩ o v') :
    Shared kind test first (Function.update stage c (.done o)) v' threads := by
  have stands := shared.stands c
  rw [invoked] at stands
  obtain ⟨calls, -⟩ := stands
  have outside : ¬ kind.Inside (threads c) (stage c) := by
    rw [invoked]
    intro puts
    cases gets.symm.trans puts
  obtain ⟨response, pool, this, used, rfl, rfl, identified, granted | refused⟩ :=
    alone_get (shared.identified c) (fun missing => shared.absent missing c) now
  · obtain ⟨success, free, value, r, carried, held⟩ := granted
    have vacant : Vacant kind stage threads c := fun c' _ => shared.nobody free c'
    rw [finish_success success, ← Function.update_eq_self c threads]
    refine shared.moves _ identified ⟨calls, ?_⟩ ?_ (.inr vacant) (fun _ => .inr vacant) (m := 0)
      value ?_ (.inl ?_) (.inr (.inl ⟨gets, ?_⟩)) ?_
    · simp [Kind.Ends, gets, carried]
    · intro _ r' carried'
      cases carried.symm.trans carried'
      exact held
    · simp [invoked, Kind.turned, gets]
    · simp [invoked, Kind.shown, gets]
    · simp [given, carried]
    · intro missing
      obtain ⟨e, -, present, -⟩ := held
      cases present.symm.trans missing
  · obtain ⟨refused, nothing, rfl⟩ := refused
    rw [← Function.update_eq_self c threads]
    refine shared.stays _ identified ⟨calls, ?_⟩ ?_ ?_ ?_ (.inl ?_) fun _ => rfl
    · cases bound : kind.maxAttempt with
      | none =>
        rw [finish_once]
        simp [Kind.Ends, gets, bound]
      | some m =>
        rw [finish_refused refused]
        simp [Kind.Ends, gets, bound]
    · intro _ r carried
      rw [given_finish nothing] at carried
      cases carried
    · refine iff_of_false ?_ outside
      rintro ⟨-, got⟩
      exact got (given_finish nothing)
    · simp [invoked, Kind.turned, gets]
    · simp [invoked, Kind.shown, gets]

/-- A `put` takes effect. -/
theorem Shared.effect_put (shared : Shared kind test first stage v threads)
    (puts : kind.task (threads c) = .puts)
    (invoked : stage c = .invoked ⟨.put (some (kind.a (threads c))), none⟩)
    (now : Alone uniqid v c ⟨.put (some (kind.a (threads c))), none⟩ o v') :
    Shared kind test first (Function.update stage c (.done o)) v' threads := by
  have stands := shared.stands c
  have holds := shared.holds c
  rw [invoked] at stands holds
  obtain ⟨d, held, computed⟩ := holds puts
  obtain ⟨response, pool, this, used, rfl, rfl, identified, e, left, freed, data⟩ :=
    alone_put (shared.identified c) held now
  have vacant : Vacant kind stage threads c := by
    intro c' other inside
    refine other (shared.single c' c inside ?_)
    rw [invoked]
    exact puts
  have value : valueAt test pool = incremented test (valueAt test v.pool) := by
    obtain ⟨e', -, present, -, same, -⟩ := held
    rw [valueAt, valueAt, left, present]
    simp only [data, same, incremented, computed]
  rw [← Function.update_eq_self c threads]
  refine shared.moves _ identified ⟨stands.1, ?_⟩ ?_ (.inr vacant) ?_ (m := 1) value ?_ (.inl ?_)
    (.inl ?_) ?_
  · simp [Kind.Ends, puts]
  · intro gets
    cases gets.symm.trans puts
  · rintro ⟨gets, -⟩
    cases gets.symm.trans puts
  · simp [invoked, Kind.turned, puts]
  · simp [invoked, Kind.shown, puts]
  · intro e' present
    cases left.symm.trans present
    exact freed
  · intro missing
    cases left.symm.trans missing

/-- A `read` takes effect. -/
theorem Shared.effect_read (shared : Shared kind test first stage v threads)
    (reads : kind.task (threads c) = .reads) (invoked : stage c = .invoked ⟨.read, none⟩)
    (now : Alone uniqid v c ⟨.read, none⟩ o v') :
    Shared kind test first (Function.update stage c (.done o)) v' threads := by
  have stands := shared.stands c
  rw [invoked] at stands
  obtain ⟨response, this, used, rfl, rfl, identified, data⟩ :=
    alone_read (shared.identified c) now
  rw [finish_once, ← Function.update_eq_self c threads]
  refine shared.stays _ identified ⟨stands.1, ?_⟩ ?_ ?_ ?_ ?_ fun _ => rfl
  · simp [Kind.Ends, reads]
  · intro gets
    cases gets.symm.trans reads
  · simp [invoked, Kind.Inside, reads]
  · simp [invoked, Kind.turned, reads]
  · cases carried : response.resource with
    | none =>
      left
      simp [invoked, Kind.shown, reads, given, carried]
    | some r =>
      right
      simp [invoked, Kind.shown, reads, given, carried, data r carried]

theorem Shared.effect (shared : Shared kind test first stage v threads) {i : Invocation δ}
    (invoked : stage c = .invoked i) (now : Alone uniqid v c i o v') :
    Shared kind test first (Function.update stage c (.done o)) v' threads := by
  have stands := shared.stands c
  rw [invoked] at stands
  obtain ⟨-, invokes⟩ := stands
  rw [Kind.invocation] at invokes
  cases task : kind.task (threads c) with
  | gets =>
    rw [task] at invokes
    cases invokes
    exact shared.effect_get task invoked now
  | puts =>
    rw [task] at invokes
    cases invokes
    exact shared.effect_put task invoked now
  | reads =>
    rw [task] at invokes
    cases invokes
    exact shared.effect_read task invoked now
  | nothing =>
    rw [task] at invokes
    cases invokes

end Effects

omit [DecidableEq C] in
/-- Every request that is sent carries a resource with the identifier. -/
theorem Shared.identifies (shared : Shared kind test first stage v threads) :
    Identifies stage v := by
  intro c i text wrapper this invoked ran
  have stands := shared.stands c
  have holds := shared.holds c
  rw [invoked] at stands holds
  obtain ⟨-, invokes⟩ := stands
  rw [Kind.invocation] at invokes
  cases task : kind.task (threads c) with
  | gets | reads =>
    rw [task] at invokes
    cases invokes
    cases ran
    exact ⟨_, _, rfl, rfl⟩
  | puts =>
    rw [task] at invokes
    cases invokes
    obtain ⟨_, ⟨e, r, -, -, -, kept, -, identified⟩, -⟩ := holds task
    have closes : (Call.put (some (kind.a (threads c)))).Closes := trivial
    obtain ⟨data, sent⟩ := Call.run_keeps closes text kept
    cases ran.symm.trans sent
    exact ⟨_, _, rfl, identified⟩
  | nothing =>
    rw [task] at invokes
    cases invokes

/-- The calls overlap, and the programs go on as if they were single attempts. -/
theorem shared_step (laws : kind.Laws test) {uniqid : ℕ → Bytes} {x y : System C δ × (C → T)}
    (tracks : Tracks uniqid (Shared kind test first) x)
    (step : kind.program.Step (Labelled uniqid) x y) :
    Tracks uniqid (Shared kind test first) y := by
  refine Tracks.step Shared.identifies ?_ tracks step
  intro x y shared step
  exact Program.keeps (P := Shared kind test first) (fun shared => shared.invoke laws)
    (fun shared => shared.effect) (fun shared => shared.respond laws) shared step

theorem shared_run (laws : kind.Laws test) (starts : ∀ c, kind.Starts test c (threads c))
    {uniqid : ℕ → Bytes} {x : System C δ × (C → T)}
    (ran : Relation.ReflTransGen (kind.program.Step (Labelled uniqid))
      (atRest first fun _ => test.identifier, threads) x) :
    Tracks uniqid (Shared kind test first) x := by
  induction ran with
  | refl => exact Tracks.start (shared_start starts)
  | tail _ step tracks => exact shared_step laws tracks step

end Sharing

end SharedVariable
