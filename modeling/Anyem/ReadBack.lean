import Anyem.PoolInvariant
import Anyem.Serialization

/-!
# Reading back what was put

Client and server read at most the same number of bytes from a message. A value
goes to the server inside a request and comes back inside a response, with dates
that the request does not have. So there are values that the server takes and
that no client can read any more; the lengths say which ones.
-/

namespace ReadBack

open ReplyMachine Resource ResourceHolder ResourceManager PoolCells Reservations PoolInvariant
  Serialization

variable {δ : Type}

/-- What the constructor of `ResourceIdentifierImpl` builds. -/
abbrev Identifier := {i : ResourceIdentifierImpl // i.Accepted}

/-- A request of a client, with the clock that the server reads in its turn. A
string of `uniqid` with more entropy has 23 letters; the formats of date and
time give ten and fifteen. -/
structure Visit (δ : Type) where
  action : Bytes
  resourceIdentifier : Identifier
  data : δ
  uniqid : Bytes
  clock : Clock
  uniqid_size : uniqid.length = 23
  date_size : clock.date.length = 10
  time_size : clock.time.length = 15

namespace Visit

def request (v : Visit δ) : Request δ :=
  Request.build v.action v.resourceIdentifier.val v.uniqid v.data v.clock

/-- What the client writes to the socket. -/
def bytes (format : DataFormat δ) (v : Visit δ) : Bytes :=
  Serialization.request format ⟨some v.request.resource, v.action⟩

/-- What the server writes to the socket. -/
def reply (format : DataFormat δ) (pool : Pool δ) (v : Visit δ) : Bytes :=
  serializeResponse format (serve pool v.request).1

end Visit

/-- The pool after the visits. -/
def poolAfter (visits : List (Visit δ)) : Pool δ :=
  final serve emptyPool (visits.map Visit.request)

def Identifier.key (i : Identifier) : Bytes := mergedKey i.val

/-- A `PUT` of `d` that is granted, and a `READ` or `GET` later on, while nobody
puts other data or deletes. -/
structure Readback (i : Identifier) (d : δ) where
  before : List (Visit δ)
  put : Visit δ
  later : List (Visit δ)
  last : Visit δ
  puts : put.action = IResourceHolder.put ∧ put.resourceIdentifier = i ∧ put.data = d
  granted : Success (serve (poolAfter before) put.request).1
  kept : ∀ e ∈ trace serve (poolAfter (before ++ [put])) (later.map Visit.request),
    e.input.key = i.key → Success e.reply →
      e.input.action ≠ IResourceHolder.put ∧ e.input.action ≠ IResourceHolder.delete
  reads : last.resourceIdentifier = i ∧
    (last.action = IResourceHolder.read ∨ last.action = IResourceHolder.get)

/-- The bytes that answer the last request. -/
def Readback.reply {i : Identifier} {d : δ} (format : DataFormat δ)
    (run : Readback i d) : Bytes :=
  run.last.reply format (poolAfter (run.before ++ [run.put] ++ run.later))

theorem Readback.put_key {i : Identifier} {d : δ} (run : Readback i d) :
    run.put.request.key = i.key :=
  congrArg Identifier.key run.puts.2.1

theorem Readback.last_key {i : Identifier} {d : δ} (run : Readback i d) :
    run.last.request.key = i.key :=
  congrArg Identifier.key run.reads.1

section Entries

variable {i j : Identifier} {d : δ}

/-- A date and a time that were set. -/
def Dated (date time : Option Bytes) : Prop :=
  (∃ s, date = some s ∧ s.length = 10) ∧ ∃ s, time = some s ∧ s.length = 15

/-- A reservation with its dates and its owner. -/
structure Taken (r : ResourceImpl δ) : Prop where
  reserved : r.reserved = true
  dated : Dated r.reservationDate r.reservationTime
  owned : ∃ s, r.transactionId = some s ∧ s.length = 23

/-- An entry with the data that were put. -/
structure Stored (j : Identifier) (d : δ) (r : ResourceImpl δ) : Prop where
  identifier : r.resourceIdentifier = some j.val
  data : r.data = d
  dated : Dated r.unreservationDate r.unreservationTime
  state : Idle r ∨ Taken r

variable (v : Visit δ)

theorem dated_clock : Dated (some v.clock.date) (some v.clock.time) :=
  ⟨⟨_, rfl, v.date_size⟩, _, rfl, v.time_size⟩

theorem stored_put {found : ResourceImpl δ} (named : found.resourceIdentifier = some j.val) :
    Stored j v.data { found.unreserved v.clock with data := v.data } where
  identifier := named
  data := rfl
  dated := dated_clock v
  state := Or.inl (idle_setData (idle_unreserved found _) _)

theorem Stored.unreserved {r : ResourceImpl δ} (stored : Stored j d r) :
    Stored j d (r.unreserved v.clock) where
  identifier := stored.identifier
  data := stored.data
  dated := dated_clock v
  state := Or.inl (idle_unreserved r _)

theorem Stored.reservedBy {r : ResourceImpl δ} (stored : Stored j d r) :
    Stored j d (r.reservedBy (some v.uniqid) v.clock) where
  identifier := stored.identifier
  data := stored.data
  dated := stored.dated
  state := Or.inr ⟨rfl, dated_clock v, _, rfl, v.uniqid_size⟩

/-- The entry at the key has an identifier that merges to the key. -/
def Named (k : Bytes) (pool : Pool δ) : Prop :=
  ∀ r, pool k = some r → ∃ j : Identifier, r.resourceIdentifier = some j.val ∧ j.key = k

/-- The entry at the key has the data that were put, and such an identifier. -/
def Holds (k : Bytes) (j : Identifier) (d : δ) (pool : Pool δ) : Prop :=
  j.key = k ∧ ∃ r, pool k = some r ∧ Stored j d r

variable {v} {pool : Pool δ} {k : Bytes}

theorem named_step (named : Named k pool) : Named k (serve pool v.request).2 := by
  intro r left
  by_cases here : v.request.key = k
  · by_cases granted : Success (serve pool v.request).1
    · obtain ⟨result, carried⟩ := granted_here granted
      rw [here, left] at carried
      have kept := named
      rw [Named] at kept
      generalize pool k = entry at carried kept
      cases carried with
      | create action free => exact ⟨v.resourceIdentifier, rfl, here⟩
      | take action found free => exact kept found rfl
      | put action found held own => exact kept found rfl
      | release action found held own => exact kept found rfl
      | read action found => exact kept r rfl
      | unknown unknown entry => exact kept r rfl
    · rw [refused_serve pool _ granted] at left
      exact named r left
  · rw [serve_elsewhere pool _ here] at left
    exact named r left

theorem named_run (visits : List (Visit δ)) : Named k (poolAfter visits) := by
  induction visits using List.reverseRecOn with
  | nil =>
    intro r present
    cases present
  | append_singleton visits v ih =>
    rw [poolAfter, List.map_append, List.map_singleton, final_snoc]
    exact named_step ih

/-- A granted `PUT` leaves its data under the identifier that it finds. -/
theorem holds_put {found : ResourceImpl δ} (present : pool v.request.key = some found)
    (named : found.resourceIdentifier = some j.val) (same : j.key = v.request.key)
    (puts : v.action = IResourceHolder.put) (granted : Success (serve pool v.request).1) :
    Holds v.request.key j v.data (serve pool v.request).2 := by
  obtain ⟨r, present', -, -, -, left⟩ := put_granted (q := v.request) puts granted
  obtain rfl := Option.some.inj (present.symm.trans present')
  exact ⟨same, _, left, stored_put v named⟩

/-- A visit that is no granted `PUT` or `DELETE` leaves the data where they are. -/
theorem holds_step (holds : Holds k j d pool)
    (kept : v.request.key = k → Success (serve pool v.request).1 →
      v.action ≠ IResourceHolder.put ∧ v.action ≠ IResourceHolder.delete) :
    Holds k j d (serve pool v.request).2 := by
  by_cases here : v.request.key = k
  · by_cases granted : Success (serve pool v.request).1
    · obtain ⟨noPut, noDelete⟩ := kept here granted
      obtain ⟨same, r, present, stored⟩ := holds
      refine ⟨same, ?_⟩
      obtain ⟨result, carried⟩ := granted_here granted
      rw [here, present] at carried
      generalize (serve pool v.request).2 k = left at carried
      cases carried with
      | take action found free => exact ⟨_, rfl, stored.reservedBy v⟩
      | put action found held own => exact False.elim (noPut action)
      | release action found held own => exact ⟨_, rfl, stored.unreserved v⟩
      | read action found => exact ⟨_, rfl, stored⟩
      | delete action found => exact False.elim (noDelete action)
      | unknown unknown entry => exact ⟨_, rfl, stored⟩
    · rw [refused_serve pool _ granted]
      exact holds
  · rw [Holds, serve_elsewhere pool _ here]
    exact holds

theorem holds_run {visits : List (Visit δ)} (holds : Holds k j d pool)
    (kept : ∀ e ∈ trace serve pool (visits.map Visit.request), e.input.key = k →
      Success e.reply →
        e.input.action ≠ IResourceHolder.put ∧ e.input.action ≠ IResourceHolder.delete) :
    Holds k j d (final serve pool (visits.map Visit.request)) := by
  induction visits generalizing pool with
  | nil => exact holds
  | cons v visits ih =>
    have first := kept (event serve pool v.request) List.mem_cons_self
    exact ih (holds_step holds first) fun e he => kept e (List.mem_cons_of_mem _ he)

theorem poolAfter_append (visits more : List (Visit δ)) : poolAfter (visits ++ more) =
    final serve (poolAfter visits) (more.map Visit.request) := by
  rw [poolAfter, List.map_append, final_append]
  rfl

/-- The last request of a run finds the data that were put, under the identifier
that the `PUT` found. -/
theorem holds_readback (run : Readback i d) {found : ResourceImpl δ}
    (present : poolAfter run.before i.key = some found)
    (named : found.resourceIdentifier = some j.val) (same : j.key = i.key) :
    Holds i.key j d (poolAfter (run.before ++ [run.put] ++ run.later)) := by
  obtain ⟨puts, -, data⟩ := run.puts
  rw [← run.put_key] at present same
  have put := holds_put present named same puts run.granted
  rw [run.put_key, data] at put
  have kept := run.kept
  rw [poolAfter_append run.before] at kept
  rw [poolAfter_append, poolAfter_append run.before]
  exact holds_run put kept

/-- There is such an identifier. -/
theorem exists_holds (run : Readback i d) :
    ∃ j, Holds i.key j d (poolAfter (run.before ++ [run.put] ++ run.later)) := by
  obtain ⟨puts, -, -⟩ := run.puts
  obtain ⟨found, present, -⟩ := put_granted (q := run.put.request) puts run.granted
  rw [run.put_key] at present
  obtain ⟨j, named, same⟩ := named_run run.before found present
  exact ⟨j, holds_readback run present named same⟩

end Entries

section Lengths

variable {i j : Identifier} {d : δ} (format : DataFormat δ)

theorem Dated.length {date time : Option Bytes} (dated : Dated date time) :
    (orNull serializeString date).length + (orNull serializeString time).length = 41 := by
  obtain ⟨⟨s, rfl, ten⟩, t, rfl, fifteen⟩ := dated
  have digits : (decimal 10).length = 2 ∧ (decimal 15).length = 2 := by decide
  rw [orNull_some ten, orNull_some fifteen, digits.1, digits.2]

theorem owner_length {s : Bytes} (size : s.length = 23) :
    (orNull serializeString (some s)).length = 31 := by
  have digits : (decimal 23).length = 2 := by decide
  rw [orNull_some size, digits]

/-- An entry with the data is longest while it is reserved. -/
theorem Stored.length_eq {r : ResourceImpl δ} (stored : Stored j d r) (taken : Taken r)
    (write : δ → Bytes) : (serializeResource write r).length =
      572 + (serializeIdentifier j.val).length + (write d).length := by
  have fixed := serializeResource_length write r
  have unreserved := stored.dated.length
  have reserved := taken.dated.length
  obtain ⟨t, owner, size⟩ := taken.owned
  rw [stored.identifier, stored.data, owner, owner_length size] at fixed
  rw [fixed, orNull]
  omega

theorem Stored.length_le {r : ResourceImpl δ} (stored : Stored j d r) (write : δ → Bytes) :
    (serializeResource write r).length ≤
      572 + (serializeIdentifier j.val).length + (write d).length := by
  rcases stored.state with idle | taken
  · have fixed := serializeResource_length write r
    have unreserved := stored.dated.length
    rw [stored.identifier, stored.data, idle.reservationDate, idle.reservationTime,
      idle.transactionId, orNull_none] at fixed
    rw [fixed, orNull]
    omega
  · exact (stored.length_eq taken write).le

/-- The length of the request that puts the data. -/
def putLength (i : Identifier) (d : δ) : ℕ :=
  660 + (serializeIdentifier i.val).length + (format.inRequest d).length

theorem put_bytes_length (v : Visit δ) (puts : v.action = IResourceHolder.put) :
    (v.bytes format).length = putLength format v.resourceIdentifier v.data := by
  have fixed := serializeResource_length format.inRequest v.request.resource
  have action : (serializeString IResourceHolder.put).length = 10 := by decide
  rw [Visit.bytes, request_length, puts, action, putLength]
  simp only [Visit.request, Request.build, ResourceImpl.construct, orNull_none,
    owner_length v.uniqid_size] at fixed
  simp only [orNull] at fixed
  simp only [Visit.request, Request.build, ResourceImpl.construct]
  omega

variable {v : Visit δ} {pool : Pool δ}

theorem granted_reply {result : Option (ResourceImpl δ)}
    (granted : Success (serve pool v.request).1)
    (handed : (serve pool v.request).1.resource = result) :
    (v.reply format pool).length =
      161 + (orNull (serializeResource format.inResponse) result).length := by
  obtain ⟨p, ok, -, -⟩ := granted_outcome granted
  have reply := serve_reply pool v.request
  rw [ok] at reply
  rw [reply] at handed
  have digit : (serializeInt IResponseWrapper.successResponseCode).length = 4 := by decide
  rw [Visit.reply, reply, respond, serializeResponse_length format _ _ digit, orNull_none]
  change p.1 = result at handed
  rw [handed]
  omega

/-- A `GET` that is granted is answered with the longest entry. -/
theorem get_reply_length (holds : Holds v.request.key j d pool)
    (gets : v.action = IResourceHolder.get) (granted : Success (serve pool v.request).1) :
    (v.reply format pool).length =
      733 + (serializeIdentifier j.val).length + (format.inResponse d).length := by
  obtain ⟨-, r, present, stored⟩ := holds
  obtain ⟨r', found, -, handed, -⟩ := get_granted (q := v.request) gets granted
  have same : r' = r := by
    rcases found with found | ⟨missing, -⟩
    · exact Option.some.inj (found.symm.trans present)
    · cases missing.symm.trans present
  subst same
  have taken : Taken (r'.reservedBy (some v.uniqid) v.clock) :=
    ⟨rfl, dated_clock v, _, rfl, v.uniqid_size⟩
  have longest := (stored.reservedBy v).length_eq taken format.inResponse
  rw [granted_reply format granted handed, orNull]
  change 161 + (serializeResource format.inResponse
    (r'.reservedBy (some v.uniqid) v.clock)).length = _
  omega

theorem read_reply_length (holds : Holds v.request.key j d pool)
    (reads : v.action = IResourceHolder.read) (granted : Success (serve pool v.request).1) :
    (v.reply format pool).length ≤
      733 + (serializeIdentifier j.val).length + (format.inResponse d).length := by
  obtain ⟨-, r, present, stored⟩ := holds
  obtain ⟨r', found, handed, -⟩ := read_granted (q := v.request) reads granted
  obtain rfl := Option.some.inj (found.symm.trans present)
  have bound := stored.length_le format.inResponse
  rw [granted_reply format granted handed, orNull]
  omega

/-- The refusal that a reserved entry gives is shorter than any request. -/
theorem refused_reply_length (holds : Holds v.request.key j d pool)
    (asks : v.action = IResourceHolder.read ∨ v.action = IResourceHolder.get)
    (refused : ¬ Success (serve pool v.request).1) : (v.reply format pool).length ≤ 660 := by
  obtain ⟨-, r, present, stored⟩ := holds
  obtain ⟨message, threw, reply⟩ := refused_outcome pool v.request refused
  rw [present] at threw
  rcases asks with reads | gets
  · rw [outcome_read _ reads] at threw
    cases threw
  · rw [outcome_get _ gets, ResourceHolderImpl.getOutcome] at threw
    split at threw
    · rename_i held
      obtain rfl := Except.error.inj threw
      have taken : Taken r := by
        refine stored.state.resolve_left fun idle => ?_
        rw [idle.reserved] at held
        cases held
      obtain ⟨t, owner, size⟩ := taken.owned
      have text : (ResourceImpl.alreadyReserved r.transactionId).length = 72 := by
        rw [owner]
        simp only [ResourceImpl.alreadyReserved, ResourceImpl.shown, Option.getD_some,
          List.length_append, size]
        decide
      have digits : (decimal 72).length = 2 := by decide
      have digit : (serializeInt IResponseWrapper.errorResponseCode).length = 4 := by decide
      rw [Visit.reply, reply, serializeResponse_length format _ _ digit, orNull_none,
        orNull_some text, digits]
      omega
    · cases threw

end Lengths

section Limit

variable (format : DataFormat δ) (i : Identifier) (d : δ)

theorem readback_request_length (run : Readback i d) :
    (run.put.bytes format).length = putLength format i d := by
  obtain ⟨puts, own, same⟩ := run.puts
  rw [put_bytes_length format run.put puts, own, same]

/-- No answer is longer than that to a `GET`. -/
theorem readback_reply_length (run : Readback i d) : ∃ j : Identifier, j.key = i.key ∧
    ((run.reply format).length ≤
        733 + (serializeIdentifier j.val).length + (format.inResponse d).length ∨
      (run.reply format).length ≤ 660) := by
  obtain ⟨-, asks⟩ := run.reads
  obtain ⟨j, holds⟩ := exists_holds run
  refine ⟨j, holds.1, ?_⟩
  rw [← run.last_key] at holds
  by_cases granted :
      Success (serve (poolAfter (run.before ++ [run.put] ++ run.later)) run.last.request).1
  · refine Or.inl ?_
    rcases asks with reads | gets
    · exact read_reply_length format holds reads granted
    · exact (get_reply_length format holds gets granted).le
  · exact Or.inr (refused_reply_length format holds asks granted)

/-- A visit with data of the client's choice. -/
def sampleVisit (action : Bytes) : Visit δ where
  action := action
  resourceIdentifier := i
  data := d
  uniqid := ascii "55b3a1c2d4e5f6.12345678"
  clock := ⟨ascii "2015-06-01", ascii "10:00:00:000000"⟩
  uniqid_size := by decide
  date_size := by decide
  time_size := by decide

/-- A variable that is made under one identifier and given back can be taken under
another one that merges to the same key, and it keeps the first one. -/
theorem exists_shared_entry {j : Identifier} (same : j.key = i.key) :
    ∃ before : List (Visit δ), (∃ found, poolAfter before i.key = some found ∧
        found.resourceIdentifier = some j.val) ∧
      ReservedBy (poolAfter before) i.key (some (sampleVisit i d IResourceHolder.get).uniqid) := by
  let make := (sampleVisit j d IResourceHolder.get).request
  let give := (sampleVisit j d IResourceHolder.release).request
  let take := (sampleVisit i d IResourceHolder.get).request
  have unheld : ∀ t, ¬ ReservedBy (emptyPool : Pool δ) make.key t := by
    rintro t ⟨r, present, -⟩
    cases present
  have makes : Success (serve emptyPool make).1 := get_succeeds rfl unheld rfl
  obtain ⟨r, made, -, -, left⟩ := get_granted rfl makes
  have named : r.resourceIdentifier = some j.val := by
    rcases made with present | ⟨-, rfl⟩
    · cases present
    · rfl
  let pool := (serve emptyPool make).2
  have gives : Success (serve pool give).1 :=
    closing_granted (q := give) (get_reserves (q := make) rfl makes) (Or.inr rfl)
  obtain ⟨r', found, -, -, -, left'⟩ := release_granted rfl gives
  obtain rfl := Option.some.inj (left.symm.trans found)
  have key : take.key = give.key := same.symm
  have takes : Success (serve (serve pool give).2 take).1 := by
    refine get_succeeds rfl ?_ rfl
    rw [key]
    exact closing_frees (Or.inr rfl) gives
  obtain ⟨r'', there, -, -, left''⟩ := get_granted rfl takes
  rw [key, left'] at there
  refine ⟨[sampleVisit j d IResourceHolder.get, sampleVisit j d IResourceHolder.release,
    sampleVisit i d IResourceHolder.get], ⟨_, left'', ?_⟩, get_reserves rfl takes⟩
  rcases there with there | ⟨missing, -⟩
  · obtain rfl := Option.some.inj there
    exact named
  · cases missing

/-- Taken again after the `PUT`, the variable makes the longest answer. -/
theorem exists_longest_readback {j : Identifier} (same : j.key = i.key) :
    ∃ run : Readback i d, (run.reply format).length =
      733 + (serializeIdentifier j.val).length + (format.inResponse d).length := by
  obtain ⟨before, ⟨found, present, named⟩, held⟩ := exists_shared_entry i d same
  let put := sampleVisit i d IResourceHolder.put
  let last := sampleVisit i d IResourceHolder.get
  have puts : Success (serve (poolAfter before) put.request).1 :=
    closing_granted (q := put.request) held (Or.inl rfl)
  let run : Readback i d := {
    before := before
    put := put
    later := []
    last := last
    puts := ⟨rfl, rfl, rfl⟩
    granted := puts
    kept := by
      intro e member
      cases member
    reads := ⟨rfl, Or.inr rfl⟩ }
  have free : ∀ t, ¬ ReservedBy (poolAfter (before ++ [put])) last.request.key t := by
    rw [poolAfter_append]
    exact closing_frees (q := put.request) (Or.inl rfl) puts
  have again : Success (serve (poolAfter (before ++ [put] ++ [])) last.request).1 := by
    rw [List.append_nil]
    exact get_succeeds rfl free rfl
  exact ⟨run, get_reply_length format (holds_readback run present named same) rfl again⟩

/-- Later requests are answered so that the client reads all, whenever the request
that put the data was read whole, exactly when that request is longer than the
limit, or else the limit has room for the dates and the other envelope. Another
identifier with the same key counts with its own length. -/
theorem readable_back_iff_room (limit : ℕ) :
    (∀ run : Readback i d,
      (run.put.bytes format).length ≤ limit → (run.reply format).length ≤ limit) ↔
    limit < putLength format i d ∨
      ∀ j : Identifier, j.key = i.key →
        putLength format i d + 73 + (format.inResponse d).length +
            (serializeIdentifier j.val).length ≤
          limit + (format.inRequest d).length + (serializeIdentifier i.val).length := by
  have size : putLength format i d =
      660 + (serializeIdentifier i.val).length + (format.inRequest d).length := rfl
  constructor
  · intro readable
    by_cases tooLong : limit < putLength format i d
    · exact Or.inl tooLong
    · refine Or.inr ?_
      intro j same
      obtain ⟨run, longest⟩ := exists_longest_readback format i d same
      have accepted := readable run
      rw [readback_request_length, longest] at accepted
      have fits := accepted (by omega)
      omega
  · intro room run accepted
    rw [readback_request_length] at accepted
    obtain ⟨j, same, bound⟩ := readback_reply_length format i d run
    have fits := (room.resolve_left (by omega)) j same
    omega

end Limit

/-- A string that fills the request up to the limit comes back with 73 bytes more. -/
theorem filled_request_not_readable_back :
    ¬ ∀ (format : DataFormat Bytes) (i : Identifier) (d : Bytes) (limit : ℕ)
        (run : Readback i d),
      (run.put.bytes format).length ≤ limit → (run.reply format).length ≤ limit := by
  intro readable
  let format : DataFormat Bytes := ⟨serializeString, serializeString⟩
  let i : Identifier := ⟨⟨ascii "anyem.com", ascii "anyemNameSpace", ascii "a"⟩, by decide⟩
  let d : Bytes := ascii "6"
  obtain ⟨run, longest⟩ := exists_longest_readback format i d (j := i) rfl
  have accepted := readable format i d (putLength format i d) run
  rw [readback_request_length, longest] at accepted
  have short := accepted le_rfl
  have same : format.inResponse d = format.inRequest d := rfl
  rw [putLength, same] at short
  omega

end ReadBack
