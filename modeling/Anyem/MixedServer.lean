import Anyem.MixedOutcomes
import Anyem.Server

/-!
# What brings the server down

A turn of the loop goes on when the bytes it read hold a request that can be
worked on, and every message or log line that names a value can be built: the
key, the action that no `case` knows, the transaction ids of a refusal. Anything
else throws what nothing catches. The id that a refusal names may be in the pool
since an earlier request, so the condition looks at the entry.
-/

namespace MixedRequests

open Separators ThrowingMethods Resource Server

variable {ν : Type}

section Refusals

variable (php : Php ν)

/-- The value has a text. -/
def Shows (v : Mixed ν) : Prop := ∃ text, v.text php = some text

/-- One of the five `case`s. -/
def Known (action : Mixed ν) : Prop :=
  action.equals php IResourceHolder.get = true ∨ action.equals php IResourceHolder.put = true ∨
    action.equals php IResourceHolder.release = true ∨
    action.equals php IResourceHolder.read = true ∨ action.equals php IResourceHolder.delete = true

/-- What the turn has to write about values other than the identifier has a text. -/
def Request.Printable (q : Request ν) (entry : Option (ResourceObject ν)) : Prop :=
  let given := q.resource
  if q.action.equals php IResourceHolder.get = true then
    (entry.getD given).reserved.isTrue = true → Shows php (entry.getD given).transactionId
  else if q.action.equals php IResourceHolder.put = true ∨
      q.action.equals php IResourceHolder.release = true then
    ∀ found, entry = some found → Foreign php found given.transactionId →
      Shows php found.transactionId ∧ Shows php given.transactionId
  else Known php q.action ∨ Shows php q.action

variable {php}

theorem refusal_caught_iff (message : Option Bytes → Bytes) (v : Mixed ν) :
    Shows php v ↔ ¬ Uncaught (refusal php message v) := by
  rw [Shows, refusal]
  cases v.text php with
  | none => simp [Uncaught, noText]
  | some text => simp [Uncaught]

theorem foreignRefusal_caught_iff (holder given : Mixed ν) :
    Shows php holder ∧ Shows php given ↔ ¬ Uncaught (foreignRefusal php holder given) := by
  rw [Shows, Shows, foreignRefusal]
  cases holder.text php with
  | none => simp [Uncaught, noText]
  | some text =>
    cases given.text php with
    | none => simp [Uncaught, noText]
    | some text' => simp [Uncaught]

/-- Nothing uncaught comes out of the handlers. -/
def Caught (o : Outcome ν) : Prop := ∀ ex, o = .error ex → ¬ Uncaught ex

theorem caught_ok (p : Option (ResourceObject ν) × Option (ResourceObject ν)) :
    Caught (.ok p : Outcome ν) := by
  intro ex same
  cases same

theorem caught_error_iff (ex : Throwable) : Caught (.error ex : Outcome ν) ↔ ¬ Uncaught ex :=
  ⟨fun caught => caught ex rfl, fun caught ex' same => by cases same; exact caught⟩

theorem getOutcome_caught_iff (given : ResourceObject ν) (now : Clock)
    (entry : Option (ResourceObject ν)) :
    Caught (getOutcome php given now entry) ↔ ((entry.getD given).reserved.isTrue = true →
      Shows php (entry.getD given).transactionId) := by
  simp only [getOutcome]
  split
  · rename_i held
    rw [caught_error_iff, ← refusal_caught_iff]
    exact ⟨fun shows _ => shows, fun shows => shows held⟩
  · rename_i free
    exact iff_of_true (caught_ok _) fun held => False.elim (free held)

theorem unreserveOutcome_caught_iff (action : Bytes) (write : ResourceObject ν → ResourceObject ν)
    (given : ResourceObject ν) (now : Clock) (entry : Option (ResourceObject ν)) :
    Caught (unreserveOutcome php action write given now entry) ↔
      ∀ found, entry = some found → Foreign php found given.transactionId →
        Shows php found.transactionId ∧ Shows php given.transactionId := by
  cases entry with
  | none =>
    rw [unreserveOutcome, caught_error_iff]
    exact iff_of_true id fun found here => by cases here
  | some found =>
    simp only [unreserveOutcome, Option.some.injEq, forall_eq']
    by_cases free : found.reserved.isFalse = true
    · rw [if_pos free, caught_error_iff]
      exact iff_of_true id fun foreign => False.elim (Mixed.not_isTrue free foreign.1)
    rw [if_neg free]
    by_cases foreign : Foreign php found given.transactionId
    · rw [if_pos foreign, caught_error_iff, ← foreignRefusal_caught_iff]
      exact ⟨fun shows _ => shows, fun shows => shows foreign⟩
    · rw [if_neg foreign]
      exact iff_of_true (caught_ok _) fun foreign' => False.elim (foreign foreign')

theorem readOutcome_caught (entry : Option (ResourceObject ν)) : Caught (readOutcome entry) := by
  cases entry with
  | none => exact (caught_error_iff _).mpr id
  | some found => exact caught_ok _

theorem deleteOutcome_caught (entry : Option (ResourceObject ν)) :
    Caught (deleteOutcome entry) := by
  cases entry with
  | none => exact (caught_error_iff _).mpr id
  | some found => exact caught_ok _

theorem unknownOutcome_caught_iff (action : Mixed ν) (entry : Option (ResourceObject ν)) :
    Caught (unknownOutcome php action entry) ↔ Shows php action := by
  rw [unknownOutcome, Shows]
  cases action.text php with
  | none => simp [caught_error_iff, Uncaught, noText]
  | some text => simp [caught_ok]

/-- The handlers end without an uncaught error exactly when all that is to be
written has a text. -/
theorem outcome_caught_iff (q : Request ν) (now : Clock) (entry : Option (ResourceObject ν)) :
    Caught (q.outcome php now entry) ↔ q.Printable php entry := by
  rw [Request.outcome]
  simp only [Request.Printable]
  split
  · exact getOutcome_caught_iff q.resource now entry
  rename_i notGet
  split
  · rename_i isPut
    rw [if_pos (Or.inl isPut)]
    exact unreserveOutcome_caught_iff _ _ q.resource now entry
  rename_i notPut
  split
  · rename_i isRelease
    rw [if_pos (Or.inr isRelease)]
    exact unreserveOutcome_caught_iff _ _ q.resource now entry
  rename_i notRelease
  rw [if_neg (not_or.mpr ⟨notPut, notRelease⟩)]
  split
  · rename_i isRead
    exact iff_of_true (readOutcome_caught entry) (Or.inl (.inr (.inr (.inr (.inl isRead)))))
  rename_i notRead
  split
  · rename_i isDelete
    exact iff_of_true (deleteOutcome_caught entry) (Or.inl (.inr (.inr (.inr (.inr isDelete)))))
  · rename_i notDelete
    have unknown : ¬ Known php q.action := by
      simp only [Known, not_or]
      exact ⟨notGet, notPut, notRelease, notRead, notDelete⟩
    rw [unknownOutcome_caught_iff, or_iff_right unknown]

end Refusals

section Entries

variable {php : Php ν} {given : ResourceObject ν} {now : Clock} {entry : Option (ResourceObject ν)}
  {p : Option (ResourceObject ν) × Option (ResourceObject ν)} {r : ResourceObject ν}

/-- Where the identifier and the transaction id of an entry come from. -/
structure Origin (given : ResourceObject ν) (entry : Option (ResourceObject ν))
    (r : ResourceObject ν) : Prop where
  identifier : ∃ r₀, (r₀ = given ∨ entry = some r₀) ∧ r.resourceIdentifier = r₀.resourceIdentifier
  transactionId : r.transactionId = given.transactionId ∨ r.transactionId = .null ∨ entry = some r

theorem Origin.same (given : ResourceObject ν) (here : entry = some r) : Origin given entry r :=
  ⟨⟨r, Or.inr here, rfl⟩, Or.inr (Or.inr here)⟩

theorem getOutcome_origin (ok : getOutcome php given now entry = .ok p) (left : p.2 = some r) :
    Origin given entry r := by
  simp only [getOutcome] at ok
  split at ok
  · cases ok
  · cases ok
    cases left
    refine ⟨⟨entry.getD given, ?_, rfl⟩, Or.inl rfl⟩
    cases entry with
    | none => exact Or.inl rfl
    | some found => exact Or.inr rfl

theorem unreserveOutcome_origin {action : Bytes} (write : ResourceObject ν → ResourceObject ν)
    (keeps : ∀ r, (write r).resourceIdentifier = r.resourceIdentifier ∧
      (write r).transactionId = r.transactionId)
    (ok : unreserveOutcome php action write given now entry = .ok p) (left : p.2 = some r) :
    Origin given entry r := by
  cases entry with
  | none => cases ok
  | some found =>
    rw [unreserveOutcome] at ok
    split at ok
    · cases ok
    split at ok
    · cases ok
    · cases ok
      cases left
      obtain ⟨identifier, transactionId⟩ := keeps (found.unreserved now)
      exact ⟨⟨found, Or.inr rfl, identifier⟩, Or.inr (Or.inl transactionId)⟩

theorem outcome_origin {q : Request ν} (ok : q.outcome php now entry = .ok p)
    (left : p.2 = some r) : Origin q.resource entry r := by
  rw [Request.outcome] at ok
  split at ok
  · exact getOutcome_origin ok left
  split at ok
  · exact unreserveOutcome_origin (fun r => { r with data := q.resource.data })
      (fun r => ⟨rfl, rfl⟩) ok left
  split at ok
  · exact unreserveOutcome_origin id (fun r => ⟨rfl, rfl⟩) ok left
  split at ok
  · cases entry with
    | none => cases ok
    | some found =>
      cases ok
      exact Origin.same q.resource left
  split at ok
  · cases entry with
    | none => cases ok
    | some found =>
      cases ok
      cases left
  · rw [unknownOutcome] at ok
    split at ok
    · cases ok
      exact Origin.same q.resource left
    · cases ok

/-- A property of identifiers that the given resource and the pool have. -/
theorem Origin.keyed (origin : Origin given entry r) (own : Keyed php given)
    (there : ∀ r, entry = some r → Keyed php r) : Keyed php r := by
  obtain ⟨⟨r₀, rfl | here, same⟩, -⟩ := origin
  · rw [Keyed, same]
    exact own
  · rw [Keyed, same]
    exact there r₀ here

theorem Origin.shows (origin : Origin given entry r) (own : Shows php given.transactionId)
    (there : ∀ r, entry = some r → Shows php r.transactionId) : Shows php r.transactionId := by
  rcases origin.transactionId with same | same | here
  · rw [same]
    exact own
  · rw [same]
    exact ⟨[], rfl⟩
  · exact there r here

end Entries

section Turns

variable (php : Serializer ν)

/-- The bytes hold a request, and what the turn has to write about it has a text. -/
def Answerable (pool : Pool ν) (clientRequest : Bytes) : Prop :=
  ∃ header body v q, cut headerEnd clientRequest = some (header, body) ∧
    php.unserialize body = .value v ∧ requestOf php.toPhp v = some q ∧
    q.Printable php.toPhp (pool q.key)

/-- What the bytes unserialize to is within the model. -/
def Within (clientRequest : Bytes) : Prop :=
  ∀ header body, cut headerEnd clientRequest = some (header, body) →
    php.unserialize body ≠ .beyond

def emptyPool : Pool ν := fun _ => none

/-- A pool that the loop leaves behind requests within the model. -/
def Reachable (pool : Pool ν) : Prop :=
  ∃ cs responses, (∀ c ∈ cs, ∀ b, c.accepted = true → c.clientRequest = some b → Within php b) ∧
    server (manage php) cs emptyPool = .ok responses pool

/-- The turn ends and the loop goes back to accepting. -/
def GoesOn (c : Connection) (pool : Pool ν) : Prop :=
  ∃ response pool', turn (manage php) c pool = .ok response pool'

/-- Whatever was read on the connection can be answered. -/
def Meets (pool : Pool ν) (c : Connection) : Prop :=
  ∀ b, c.accepted = true → c.clientRequest = some b → Answerable php pool b

/-- Each turn of the run meets the condition in the pool that it finds. -/
def AllMeet : Pool ν → List Connection → Prop
  | _, [] => True
  | pool, c :: cs => Meets php pool c ∧
      ∀ response pool', turn (manage php) c pool = .ok response pool' → AllMeet pool' cs

variable {php} {pool : Pool ν} {c : Connection} {clientRequest : Bytes}

theorem Sound.update {php : Php ν} (sound : Sound php pool) (key : Bytes)
    {entry : Option (ResourceObject ν)} (keyed : ∀ r, entry = some r → Keyed php r) :
    Sound php (Function.update pool key entry) := by
  intro k r here
  rw [Function.update_apply] at here
  split at here
  · exact keyed r here
  · exact sound k r here

/-- What `manage` does with a request. -/
theorem manage_request (sound : Sound php.toPhp pool) {body : Bytes} {v : Mixed ν}
    (unserialized : php.unserialize body = .value v) {q : Request ν}
    (request : requestOf php.toPhp v = some q) (now : Clock) :
    manage php body now pool = match q.outcome php.toPhp now (pool q.key) with
      | .error (.exception message) => .ok
        (php.serialize ⟨none, some message, some IResponseWrapper.errorResponseCode⟩) pool
      | .error ex => .error ex pool
      | .ok (result, entry) => .ok
        (php.serialize ⟨result, none, some IResponseWrapper.successResponseCode⟩)
        (Function.update pool q.key entry) := by
  simp only [manage, unserialized, bind_run, manageValue_request now sound request]
  cases q.outcome php.toPhp now (pool q.key) with
  | error ex => cases ex <;> rfl
  | ok p => rfl

/-- A request that can be answered is: the pool stays as it was, or gets what the
outcome leaves. -/
theorem turn_answerable (sound : Sound php.toPhp pool) (accepted : c.accepted = true)
    (read : c.clientRequest = some clientRequest) {header body : Bytes}
    (split : cut headerEnd clientRequest = some (header, body)) {v : Mixed ν}
    (unserialized : php.unserialize body = .value v) {q : Request ν}
    (request : requestOf php.toPhp v = some q)
    (printable : q.Printable php.toPhp (pool q.key)) :
    ∃ response pool', turn (manage php) c pool = .ok response pool' ∧
      (pool' = pool ∨ ∃ p, q.outcome php.toPhp c.clock (pool q.key) = .ok p ∧
        pool' = Function.update pool q.key p.2) := by
  have caught := (outcome_caught_iff q c.clock (pool q.key)).mpr printable
  rw [turn_managed accepted read split, manage_request sound unserialized request]
  cases o : q.outcome php.toPhp c.clock (pool q.key) with
  | error ex =>
    cases ex with
    | exception message => exact ⟨_, pool, rfl, Or.inl rfl⟩
    | memberCall method => exact False.elim (caught _ o trivial)
  | ok p => exact ⟨_, _, rfl, Or.inr ⟨p, rfl, rfl⟩⟩

/-- Anything else within the model ends the loop, with the pool as it was. -/
theorem turn_unanswerable (sound : Sound php.toPhp pool) (accepted : c.accepted = true)
    (read : c.clientRequest = some clientRequest) (within : Within php clientRequest)
    (unanswerable : ¬ Answerable php pool clientRequest) :
    ∃ ex, turn (manage php) c pool = .error ex pool := by
  cases split : cut headerEnd clientRequest with
  | none => exact turn_headless accepted read split
  | some parts =>
    obtain ⟨header, body⟩ := parts
    rw [turn_managed accepted read split]
    cases unserialized : php.unserialize body with
    | beyond => exact False.elim (within header body split unserialized)
    | throws ex => exact ⟨ex, by simp only [manage, unserialized, throw_run]⟩
    | value v =>
      cases request : requestOf php.toPhp v with
      | none =>
        have other : ∃ ex, manageValue php.toPhp v c.clock pool = .error ex pool :=
          manageValue_other c.clock request
        obtain ⟨ex, threw⟩ := other
        exact ⟨ex, by simp only [manage, unserialized, bind_run, threw]⟩
      | some q =>
        have uncaught : ¬ Caught (q.outcome php.toPhp c.clock (pool q.key)) := by
          rw [outcome_caught_iff]
          intro printable
          exact unanswerable ⟨header, body, v, q, split, unserialized, request, printable⟩
        rw [manage_request sound unserialized request]
        cases o : q.outcome php.toPhp c.clock (pool q.key) with
        | error ex =>
          cases ex with
          | exception message => exact False.elim (uncaught (o ▸ (caught_error_iff _).mpr id))
          | memberCall method => exact ⟨_, rfl⟩
        | ok p => exact False.elim (uncaught (o ▸ caught_ok p))

theorem within_of_answerable (answerable : Answerable php pool clientRequest) :
    Within php clientRequest := by
  obtain ⟨header, body, v, q, split, unserialized, -⟩ := answerable
  intro header' body' split' beyond
  cases split.symm.trans split'
  cases unserialized.symm.trans beyond

/-- Nothing was read, or some bytes were. -/
theorem silent_or_read (c : Connection) :
    (∀ b, c.accepted = true → c.clientRequest ≠ some b) ∨
      ∃ b, c.accepted = true ∧ c.clientRequest = some b := by
  by_cases silent : ∀ b, c.accepted = true → c.clientRequest ≠ some b
  · exact Or.inl silent
  · simp only [not_forall, not_not] at silent
    obtain ⟨b, accepted, read⟩ := silent
    exact Or.inr ⟨b, accepted, read⟩

/-- A turn that meets the condition goes on, and the log lines can still be built. -/
theorem turn_meets (sound : Sound php.toPhp pool) (meets : Meets php pool c) :
    ∃ response pool', turn (manage php) c pool = .ok response pool' ∧ Sound php.toPhp pool' := by
  rcases silent_or_read c with silent | ⟨b, accepted, read⟩
  · exact ⟨none, pool, turn_skips pool silent, sound⟩
  obtain ⟨header, body, v, q, split, unserialized, request, printable⟩ := meets b accepted read
  obtain ⟨response, pool', ran, rfl | ⟨p, ok, rfl⟩⟩ :=
    turn_answerable sound accepted read split unserialized request printable
  · exact ⟨response, pool', ran, sound⟩
  · refine ⟨response, _, ran, sound.update q.key ?_⟩
    intro r left
    obtain ⟨w, -, -, keyed, -⟩ := requestOf_some request
    exact (outcome_origin ok left).keyed ⟨q.key, keyed⟩ (sound q.key)

end Turns

section Runs

variable {php : Serializer ν} {pool : Pool ν}

/-- A loop that has not been left has met the condition at every turn. -/
theorem allMeet_of_server (sound : Sound php.toPhp pool) {cs : List Connection}
    (within : ∀ c ∈ cs, ∀ b, c.accepted = true → c.clientRequest = some b → Within php b)
    {responses : List (Option Bytes)} {pool' : Pool ν}
    (ran : server (manage php) cs pool = .ok responses pool') :
    AllMeet php pool cs ∧ Sound php.toPhp pool' := by
  induction cs generalizing pool responses with
  | nil =>
    cases ran
    exact ⟨trivial, sound⟩
  | cons c cs ih =>
    obtain ⟨response, pool₁, first, ran⟩ := of_bind_ok ran
    obtain ⟨responses₁, pool₂, rest, done⟩ := of_bind_ok ran
    cases done
    have meets : Meets php pool c := by
      intro b accepted read
      by_contra unanswerable
      obtain ⟨ex, threw⟩ := turn_unanswerable sound accepted read
        (within c List.mem_cons_self b accepted read) unanswerable
      rw [first] at threw
      cases threw
    obtain ⟨response', pool₁', first', sound₁⟩ := turn_meets sound meets
    cases first.symm.trans first'
    obtain ⟨later, sound'⟩ :=
      ih sound₁ (fun c' member => within c' (List.mem_cons_of_mem c member)) rest
    refine ⟨⟨meets, ?_⟩, sound'⟩
    intro response'' pool'' again
    cases first.symm.trans again
    exact later

/-- A run whose turns all meet the condition goes through. -/
theorem server_of_allMeet (sound : Sound php.toPhp pool) {cs : List Connection}
    (meet : AllMeet php pool cs) :
    (∃ responses pool', server (manage php) cs pool = .ok responses pool' ∧
      responses.length = cs.length) ∧
    ∀ c ∈ cs, ∀ b, c.accepted = true → c.clientRequest = some b → Within php b := by
  induction cs generalizing pool with
  | nil => exact ⟨⟨[], pool, rfl, rfl⟩, fun c member => by cases member⟩
  | cons c cs ih =>
    obtain ⟨meets, later⟩ := meet
    obtain ⟨response, pool₁, first, sound₁⟩ := turn_meets sound meets
    obtain ⟨⟨responses, pool', rest, count⟩, within⟩ := ih sound₁ (later response pool₁ first)
    constructor
    · refine ⟨response :: responses, pool', ?_, by rw [List.length_cons, List.length_cons, count]⟩
      rw [server, bind_ok first, bind_ok rest, pure_run]
    · intro c' member b accepted read
      rcases List.mem_cons.mp member with rfl | member
      · exact within_of_answerable (meets b accepted read)
      · exact within c' member b accepted read

theorem sound_empty (php : Php ν) : Sound php emptyPool := by
  intro key r here
  cases here

theorem sound_of_reachable (reachable : Reachable php pool) : Sound php.toPhp pool := by
  obtain ⟨cs, responses, within, ran⟩ := reachable
  exact (allMeet_of_server (sound_empty php.toPhp) within ran).2

end Runs

section PlainRequests

variable (php : Serializer ν)

/-- The bytes hold a request whose transaction id has a text, and whose action
has one if no `case` knows it. -/
def Plain (clientRequest : Bytes) : Prop :=
  ∃ header body v q, cut headerEnd clientRequest = some (header, body) ∧
    php.unserialize body = .value v ∧ requestOf php.toPhp v = some q ∧
    Shows php.toPhp q.resource.transactionId ∧ (Known php.toPhp q.action ∨ Shows php.toPhp q.action)

/-- The transaction ids in the pool have a text. -/
def Told (pool : Pool ν) : Prop := ∀ key r, pool key = some r → Shows php.toPhp r.transactionId

variable {php} {pool : Pool ν}

theorem plain_printable {q : Request ν} {entry : Option (ResourceObject ν)}
    (own : Shows php.toPhp q.resource.transactionId)
    (action : Known php.toPhp q.action ∨ Shows php.toPhp q.action)
    (there : ∀ r, entry = some r → Shows php.toPhp r.transactionId) :
    q.Printable php.toPhp entry := by
  simp only [Request.Printable]
  split
  · intro _
    cases entry with
    | none => exact own
    | some found => exact there found rfl
  split
  · intro found here _
    exact ⟨there found here, own⟩
  · exact action

/-- A plain request can be answered, and leaves only ids that have a text. -/
theorem turn_plain (sound : Sound php.toPhp pool) (told : Told php pool) {c : Connection}
    (plain : ∀ b, c.accepted = true → c.clientRequest = some b → Plain php b) :
    Meets php pool c ∧
      ∀ response pool', turn (manage php) c pool = .ok response pool' → Told php pool' := by
  constructor
  · intro b accepted read
    obtain ⟨header, body, v, q, split, unserialized, request, own, action⟩ := plain b accepted read
    exact ⟨header, body, v, q, split, unserialized, request,
      plain_printable own action (told q.key)⟩
  · intro response pool' ran
    rcases silent_or_read c with silent | ⟨b, accepted, read⟩
    · cases (turn_skips pool silent).symm.trans ran
      exact told
    obtain ⟨header, body, v, q, split, unserialized, request, own, action⟩ := plain b accepted read
    obtain ⟨response', pool'', ran', rfl | ⟨p, ok, rfl⟩⟩ :=
      turn_answerable sound accepted read split unserialized request
        (plain_printable own action (told q.key))
    · cases ran'.symm.trans ran
      exact told
    · cases ran'.symm.trans ran
      intro key r here
      rw [Function.update_apply] at here
      split at here
      · exact (outcome_origin ok here).shows own (told q.key)
      · exact told key r here

theorem allMeet_of_plain (sound : Sound php.toPhp pool) (told : Told php pool)
    {cs : List Connection}
    (plain : ∀ c ∈ cs, ∀ b, c.accepted = true → c.clientRequest = some b → Plain php b) :
    AllMeet php pool cs := by
  induction cs generalizing pool with
  | nil => trivial
  | cons c cs ih =>
    obtain ⟨meets, tells⟩ := turn_plain sound told (plain c List.mem_cons_self)
    refine ⟨meets, ?_⟩
    intro response pool' ran
    obtain ⟨response', pool'', ran', sound'⟩ := turn_meets sound meets
    cases ran'.symm.trans ran
    exact ih sound' (tells _ _ ran) fun c' member => plain c' (List.mem_cons_of_mem c member)

end PlainRequests

end MixedRequests
