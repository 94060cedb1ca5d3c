import Anyem.ValueTexts
import Anyem.WholeMessages

/-!
# The messages as serialized objects

The objects in a message are values with a class and properties, written as
`serialize` writes them. Either side gets back from the bytes of the other the
wrapper that was sent, and `FALSE` from bytes that were cut. The properties of
the parent class stand last, as PHP writes them up to 8.0. A property that is
missing keeps the default of its class. Only wrappers whose properties have the
declared types are read here, as clients send them; others are a matter of
`MixedRequests`.
-/

namespace WireMessages

open Resource ResourceHolder ResourceManager PoolCells Serialization SerializedValues

variable {φ : Type}

/-- Data that are not `NULL`. -/
abbrev Datum (φ : Type) := {value : Value φ // value.proper = true ∧ value.isNull = false}

section Values

/-- The name of a private property, as it is written. -/
def privateName (declaring name : Bytes) : Key := .string ([0] ++ declaring ++ [0] ++ name)

def entriesOf : List (Key × Value φ) → Entries φ
  | [] => .nil
  | (key, value) :: rest => .cons key value (entriesOf rest)

def nullOr {α : Type} (value : α → Value φ) : Option α → Value φ
  | none => .null
  | some a => value a

def dataValue : Option (Datum φ) → Value φ := nullOr Subtype.val

def identifierProperties (i : ResourceIdentifierImpl) : List (Key × Value φ) :=
  let className := ascii "ResourceIdentifierImpl"
  [(privateName className (ascii "_url_s"), .string i.url),
   (privateName className (ascii "_name_space_s"), .string i.nameSpace),
   (privateName className (ascii "_name_s"), .string i.name)]

def identifierValue (i : ResourceIdentifierImpl) : Value φ :=
  .object (ascii "ResourceIdentifierImpl") (entriesOf (identifierProperties i))

def resourceProperties (r : ResourceImpl (Option (Datum φ))) : List (Key × Value φ) :=
  let className := ascii "ResourceImpl"
  let parent := ascii "ResourceIdentifierImpl"
  [(privateName className (ascii "_resourceIdentifier"),
     nullOr identifierValue r.resourceIdentifier),
   (privateName className (ascii "_data_m"), dataValue r.data),
   (privateName className (ascii "_reserved_b"), .bool r.reserved),
   (privateName className (ascii "_reservation_date"), nullOr .string r.reservationDate),
   (privateName className (ascii "_reservation_time"), nullOr .string r.reservationTime),
   (privateName className (ascii "_unreservation_date"), nullOr .string r.unreservationDate),
   (privateName className (ascii "_unreservation_time"), nullOr .string r.unreservationTime),
   (privateName className (ascii "_transaction_id_l"), nullOr .string r.transactionId),
   (privateName parent (ascii "_url_s"), .null),
   (privateName parent (ascii "_name_space_s"), .null),
   (privateName parent (ascii "_name_s"), .null)]

def resourceValue (r : ResourceImpl (Option (Datum φ))) : Value φ :=
  .object (ascii "ResourceImpl") (entriesOf (resourceProperties r))

def wrapperProperties (w : ResourceWrapper (Option (Datum φ))) : List (Key × Value φ) :=
  let className := ascii "ResourceWrapper"
  [(privateName className (ascii "_action"), .string w.action),
   (privateName className (ascii "_resource"), nullOr resourceValue w.resource)]

def wrapperValue (w : ResourceWrapper (Option (Datum φ))) : Value φ :=
  .object (ascii "ResourceWrapper") (entriesOf (wrapperProperties w))

def responseProperties (w : ResponseWrapperImpl (Option (Datum φ))) : List (Key × Value φ) :=
  let className := ascii "ResponseWrapperImpl"
  [(privateName className (ascii "_resource"), nullOr resourceValue w.resource),
   (privateName className (ascii "_error_message"), nullOr .string w.errorMessage),
   (privateName className (ascii "_response_code"), nullOr .int w.responseCode)]

def responseValue (w : ResponseWrapperImpl (Option (Datum φ))) : Value φ :=
  .object (ascii "ResponseWrapperImpl") (entriesOf (responseProperties w))

end Values

section Objects

def stringOf : Value φ → Option Bytes
  | .string s => some s
  | _ => none

def boolOf : Value φ → Option Bool
  | .bool b => some b
  | _ => none

def intOf : Value φ → Option ℤ
  | .int n => some n
  | _ => none

/-- `NULL`, or what is read otherwise. -/
def orNullOf {α : Type} (read : Value φ → Option α) : Value φ → Option (Option α)
  | .null => some none
  | value => (read value).map some

def datumOf (value : Value φ) : Option (Datum φ) :=
  if h : value.proper = true ∧ value.isNull = false then some ⟨value, h⟩ else none

/-- The properties of an object of the class. -/
def propertiesOf (className : Bytes) : Value φ → Option (Entries φ)
  | .object c properties => if c = className then some properties else none
  | _ => none

/-- A property, or the default of its class. -/
def propertyOf {α : Type} (properties : Entries φ) (name : Key) (missing : Option α)
    (read : Value φ → Option α) : Option α :=
  match properties.find? name with
  | none => missing
  | some value => read value

def identifierOf (value : Value φ) : Option ResourceIdentifierImpl := do
  let className := ascii "ResourceIdentifierImpl"
  let properties ← propertiesOf className value
  let url ← propertyOf properties (privateName className (ascii "_url_s")) none stringOf
  let nameSpace ← propertyOf properties (privateName className (ascii "_name_space_s")) none stringOf
  let name ← propertyOf properties (privateName className (ascii "_name_s")) none stringOf
  return ⟨url, nameSpace, name⟩

def resourceOf (value : Value φ) : Option (ResourceImpl (Option (Datum φ))) := do
  let className := ascii "ResourceImpl"
  let properties ← propertiesOf className value
  let text (name : String) : Option (Option Bytes) :=
    propertyOf properties (privateName className (ascii name)) (some none) (orNullOf stringOf)
  let resourceIdentifier ← propertyOf properties
    (privateName className (ascii "_resourceIdentifier")) (some none) (orNullOf identifierOf)
  let data ← propertyOf properties (privateName className (ascii "_data_m")) (some none)
    (orNullOf datumOf)
  let reserved ← propertyOf properties (privateName className (ascii "_reserved_b"))
    (some false) boolOf
  let reservationDate ← text "_reservation_date"
  let reservationTime ← text "_reservation_time"
  let unreservationDate ← text "_unreservation_date"
  let unreservationTime ← text "_unreservation_time"
  let transactionId ← text "_transaction_id_l"
  return ⟨resourceIdentifier, data, reserved, reservationDate, reservationTime,
    unreservationDate, unreservationTime, transactionId⟩

def wrapperOf (value : Value φ) : Option (ResourceWrapper (Option (Datum φ))) := do
  let className := ascii "ResourceWrapper"
  let properties ← propertiesOf className value
  let action ← propertyOf properties (privateName className (ascii "_action")) none stringOf
  let resource ← propertyOf properties (privateName className (ascii "_resource")) (some none)
    (orNullOf resourceOf)
  return ⟨resource, action⟩

def responseOf (value : Value φ) : Option (ResponseWrapperImpl (Option (Datum φ))) := do
  let className := ascii "ResponseWrapperImpl"
  let properties ← propertiesOf className value
  let resource ← propertyOf properties (privateName className (ascii "_resource")) (some none)
    (orNullOf resourceOf)
  let errorMessage ← propertyOf properties (privateName className (ascii "_error_message"))
    (some none) (orNullOf stringOf)
  let responseCode ← propertyOf properties (privateName className (ascii "_response_code"))
    (some none) (orNullOf intOf)
  return ⟨resource, errorMessage, responseCode⟩

end Objects

section ReadBack

theorem keys_entriesOf (ps : List (Key × Value φ)) :
    (entriesOf ps).keys = ps.map Prod.fst := by
  induction ps with
  | nil => rfl
  | cons p ps ih => rw [entriesOf, Entries.keys, ih, List.map_cons]

theorem length_entriesOf (ps : List (Key × Value φ)) : (entriesOf ps).length = ps.length := by
  induction ps with
  | nil => rfl
  | cons p ps ih => rw [entriesOf, Entries.length, ih, List.length_cons]

theorem find?_entriesOf {ps : List (Key × Value φ)} (distinct : (ps.map Prod.fst).Nodup)
    {name : Key} {value : Value φ} (member : (name, value) ∈ ps) :
    (entriesOf ps).find? name = some value := by
  induction ps with
  | nil => cases member
  | cons p ps ih =>
    rw [List.map_cons, List.nodup_cons] at distinct
    rw [entriesOf, Entries.find?]
    rcases List.mem_cons.mp member with rfl | member
    · exact if_pos rfl
    · have other : ¬ p.1 = name := by
        rintro rfl
        exact distinct.1 (List.mem_map.mpr ⟨_, member, rfl⟩)
      rw [if_neg other]
      exact ih distinct.2 member

/-- The property in place `i`. -/
theorem propertyOf_at {ps : List (Key × Value φ)} (distinct : (ps.map Prod.fst).Nodup) (i : ℕ)
    {name : Key} {value : Value φ} (here : ps[i]? = some (name, value)) {α : Type}
    (missing : Option α) (read : Value φ → Option α) :
    propertyOf (entriesOf ps) name missing read = read value := by
  rw [propertyOf, find?_entriesOf distinct (List.mem_of_getElem? here)]

theorem orNullOf_nullOr {α : Type} {read : Value φ → Option α} {value : α → Value φ}
    (reads : ∀ a, read (value a) = some a) (filled : ∀ a, (value a).isNull = false)
    (o : Option α) : orNullOf read (nullOr value o) = some o := by
  cases o with
  | none => rfl
  | some a =>
    have filled := filled a
    have reads := reads a
    rw [nullOr]
    cases written : value a with
    | null =>
      rw [written] at filled
      cases filled
    | _ =>
      rw [written] at reads
      rw [orNullOf, reads, Option.map_some]
      intro null
      cases null

theorem text_read (s : Option Bytes) :
    orNullOf stringOf (nullOr (Value.string : Bytes → Value φ) s) = some s := by
  apply orNullOf_nullOr
  · intro s
    rfl
  · intro s
    rfl

theorem data_read (d : Option (Datum φ)) : orNullOf datumOf (dataValue d) = some d := by
  refine orNullOf_nullOr ?_ (fun d => d.2.2) d
  intro d
  rw [datumOf, dif_pos d.2]

theorem identifierOf_identifierValue (i : ResourceIdentifierImpl) :
    identifierOf (identifierValue i : Value φ) = some i := rfl

theorem resource_names (r : ResourceImpl (Option (Datum φ))) :
    ((resourceProperties r).map Prod.fst).Nodup := by
  simp only [resourceProperties, List.map_cons, List.map_nil]
  decide

theorem resourceOf_resourceValue (r : ResourceImpl (Option (Datum φ))) :
    resourceOf (resourceValue r) = some r := by
  have opened : propertiesOf (ascii "ResourceImpl") (resourceValue r) =
      some (entriesOf (resourceProperties r)) := by
    rw [resourceValue, propertiesOf, if_pos rfl]
  have named := @propertyOf_at φ _ (resource_names r)
  simp only [resourceOf, opened, Option.bind_eq_bind, Option.bind_some, named 0 rfl, named 1 rfl,
    named 2 rfl, named 3 rfl, named 4 rfl, named 5 rfl, named 6 rfl, named 7 rfl, text_read,
    data_read, orNullOf_nullOr identifierOf_identifierValue (fun _ => rfl)]
  rfl

theorem wrapper_names (w : ResourceWrapper (Option (Datum φ))) :
    ((wrapperProperties w).map Prod.fst).Nodup := by
  simp only [wrapperProperties, List.map_cons, List.map_nil]
  decide

theorem wrapperOf_wrapperValue (w : ResourceWrapper (Option (Datum φ))) :
    wrapperOf (wrapperValue w) = some w := by
  have opened : propertiesOf (ascii "ResourceWrapper") (wrapperValue w) =
      some (entriesOf (wrapperProperties w)) := by
    rw [wrapperValue, propertiesOf, if_pos rfl]
  have named := @propertyOf_at φ _ (wrapper_names w)
  simp only [wrapperOf, opened, Option.bind_eq_bind, Option.bind_some, named 0 rfl, named 1 rfl,
    orNullOf_nullOr resourceOf_resourceValue (fun _ => rfl)]
  rfl

theorem response_names (w : ResponseWrapperImpl (Option (Datum φ))) :
    ((responseProperties w).map Prod.fst).Nodup := by
  simp only [responseProperties, List.map_cons, List.map_nil]
  decide

theorem code_read (n : Option ℤ) :
    orNullOf intOf (nullOr (Value.int : ℤ → Value φ) n) = some n := by
  apply orNullOf_nullOr
  · intro n
    rfl
  · intro n
    rfl

theorem responseOf_responseValue (w : ResponseWrapperImpl (Option (Datum φ))) :
    responseOf (responseValue w) = some w := by
  have opened : propertiesOf (ascii "ResponseWrapperImpl") (responseValue w) =
      some (entriesOf (responseProperties w)) := by
    rw [responseValue, propertiesOf, if_pos rfl]
  have named := @propertyOf_at φ _ (response_names w)
  simp only [responseOf, opened, Option.bind_eq_bind, Option.bind_some, named 0 rfl, named 1 rfl,
    named 2 rfl, text_read, code_read, orNullOf_nullOr resourceOf_resourceValue (fun _ => rfl)]
  rfl

end ReadBack

section Proper

theorem nullOr_proper {α : Type} {value : α → Value φ} (proper : ∀ a, (value a).proper = true)
    (o : Option α) : (nullOr value o).proper = true := by
  cases o with
  | none => rfl
  | some a => exact proper a

theorem distinct_iff (entries : Entries φ) :
    entries.distinct = true ↔ entries.keys.Nodup := by
  induction entries with
  | nil => simp [Entries.distinct, Entries.keys]
  | cons key value rest ih =>
    simp only [Entries.distinct, Entries.keys, Bool.and_eq_true, decide_eq_true_eq, ih,
      List.nodup_cons]

theorem object_proper {className : Bytes} {ps : List (Key × Value φ)}
    (distinct : (ps.map Prod.fst).Nodup)
    (properties : ∀ p ∈ ps, (∃ s, p.1 = .string s) ∧ p.2.proper = true) :
    (Value.object className (entriesOf ps)).proper = true := by
  have names : (entriesOf ps).normal propertyName = true := by
    rw [Entries.normal, keys_entriesOf, List.all_eq_true]
    intro name member
    obtain ⟨p, among, rfl⟩ := List.mem_map.mp member
    obtain ⟨⟨s, same⟩, -⟩ := properties p among
    rw [same]
    exact decide_eq_true rfl
  have values : (entriesOf ps).proper = true := by
    clear distinct names
    induction ps with
    | nil => rfl
    | cons p ps ih =>
      obtain ⟨⟨s, same⟩, proper⟩ := properties p List.mem_cons_self
      have rest := ih fun p member => properties p (List.mem_cons_of_mem _ member)
      simp only [entriesOf, Entries.proper, same, Key.bounded, proper, rest, Bool.and_true]
  rw [Value.proper, (distinct_iff _).mpr (keys_entriesOf ps ▸ distinct), names, values]
  rfl

theorem identifier_proper (i : ResourceIdentifierImpl) :
    (identifierValue i : Value φ).proper = true := by
  apply object_proper
  · simp only [identifierProperties, List.map_cons, List.map_nil]
    decide
  · simp [identifierProperties, privateName, Value.proper]

theorem dataValue_proper (d : Option (Datum φ)) : (dataValue d).proper = true :=
  nullOr_proper (fun d => d.2.1) d

theorem resource_proper (r : ResourceImpl (Option (Datum φ))) :
    (resourceValue r).proper = true := by
  have text : ∀ s : Option Bytes, (nullOr Value.string s : Value φ).proper = true :=
    nullOr_proper fun _ => rfl
  refine object_proper (resource_names r) ?_
  simp [resourceProperties, privateName, text, dataValue_proper, nullOr_proper identifier_proper,
    Value.proper]

theorem wrapper_proper (w : ResourceWrapper (Option (Datum φ))) :
    (wrapperValue w).proper = true := by
  refine object_proper (wrapper_names w) ?_
  simp [wrapperProperties, privateName, nullOr_proper resource_proper, Value.proper]

theorem response_proper {w : ResponseWrapperImpl (Option (Datum φ))}
    (code : ∀ n, w.responseCode = some n → clamp n = n) : (responseValue w).proper = true := by
  have codeValue : (nullOr Value.int w.responseCode : Value φ).proper = true := by
    cases present : w.responseCode with
    | none => rfl
    | some n => exact decide_eq_true (code n present)
  have text : (nullOr Value.string w.errorMessage : Value φ).proper = true :=
    nullOr_proper (fun _ => rfl) _
  refine object_proper (response_names w) ?_
  simp [responseProperties, privateName, text, codeValue, nullOr_proper resource_proper]

theorem find?_proper {entries : Entries φ} (proper : entries.proper = true) {name : Key}
    {value : Value φ} (found : entries.find? name = some value) : value.proper = true := by
  induction entries with
  | nil => cases found
  | cons key first rest ih =>
    simp only [Entries.proper, Bool.and_eq_true] at proper
    rw [Entries.find?] at found
    split at found
    · cases found
      exact proper.1.2
    · exact ih proper.2 found

theorem propertiesOf_proper {className : Bytes} {value : Value φ} (proper : value.proper = true)
    {properties : Entries φ} (opened : propertiesOf className value = some properties) :
    properties.proper = true := by
  cases value with
  | object c ps =>
    rw [propertiesOf] at opened
    split at opened
    · cases opened
      simp only [Value.proper, Bool.and_eq_true] at proper
      exact proper.2
    · cases opened
  | _ => cases opened

/-- The data of a resource in what was unserialized: nothing is refused. -/
theorem datumOf_unserialized (float : FloatText φ) {s : Bytes} {value resource data : Value φ}
    (ran : unserialize float s = some value) {className : Bytes} {outer inner : Entries φ}
    (opened : propertiesOf className value = some outer) {name : Key}
    (here : outer.find? name = some resource)
    (opened' : propertiesOf (ascii "ResourceImpl") resource = some inner)
    (here' : inner.find? (privateName (ascii "ResourceImpl") (ascii "_data_m")) = some data) :
    ∃ d, orNullOf datumOf data = some d ∧ dataValue d = data := by
  have outerProper := propertiesOf_proper (unserialize_proper float ran) opened
  have innerProper := propertiesOf_proper (find?_proper outerProper here) opened'
  have proper : data.proper = true := find?_proper innerProper here'
  cases filled : data.isNull with
  | true =>
    cases data with
    | null => exact ⟨none, rfl, rfl⟩
    | _ => cases filled
  | false =>
    have read := data_read (some (⟨data, proper, filled⟩ : Datum φ))
    exact ⟨_, read, rfl⟩

end Proper

section Bytes

variable (float : FloatText φ)

/-- The data inside a message, where nothing refers to anything else. -/
def dataFormat : DataFormat (Option (Datum φ)) :=
  ⟨fun d => serialize float (dataValue d), fun d => serialize float (dataValue d)⟩

theorem serialize_object (className : Bytes) (ps : List (Key × Value φ)) :
    serialize float (.object className (entriesOf ps)) =
      object className (ps.map fun p => serializeKey p.1 ++ serialize float p.2) := by
  have body : serializeEntries float (entriesOf ps) =
      (ps.map fun p => serializeKey p.1 ++ serialize float p.2).flatten := by
    induction ps with
    | nil => rfl
    | cons p ps ih => rw [entriesOf, serializeEntries, ih, List.map_cons, List.flatten_cons]
  rw [serialize, body, length_entriesOf, object, List.length_map, quoted]
  simp only [List.append_assoc]
  rfl

theorem serialize_nullOr {α : Type} {value : α → Value φ} {write : α → Bytes}
    (writes : ∀ a, serialize float (value a) = write a) (o : Option α) :
    serialize float (nullOr value o) = orNull write o := by
  cases o with
  | none => rfl
  | some a => exact writes a

theorem serialize_identifierValue (i : ResourceIdentifierImpl) :
    serialize float (identifierValue i) = serializeIdentifier i := serialize_object float _ _

theorem serialize_text (s : Option Bytes) :
    serialize float (nullOr Value.string s) = orNull serializeString s :=
  serialize_nullOr float (fun _ => rfl) s

theorem serialize_resourceValue (r : ResourceImpl (Option (Datum φ))) :
    serialize float (resourceValue r) =
      serializeResource (fun d => serialize float (dataValue d)) r := by
  rw [resourceValue, serialize_object]
  simp only [resourceProperties, List.map_cons, List.map_nil, serialize_text,
    serialize_nullOr float (serialize_identifierValue float)]
  rfl

theorem serialize_wrapperValue (w : ResourceWrapper (Option (Datum φ))) :
    serialize float (wrapperValue w) = serializeWrapper (dataFormat float) w := by
  rw [wrapperValue, serialize_object]
  simp only [wrapperProperties, List.map_cons, List.map_nil,
    serialize_nullOr float (serialize_resourceValue float)]
  rfl

theorem serialize_responseValue (w : ResponseWrapperImpl (Option (Datum φ))) :
    serialize float (responseValue w) = serializeResponse (dataFormat float) w := by
  have code : serialize float (nullOr Value.int w.responseCode) =
      orNull serializeInt w.responseCode := serialize_nullOr float (fun _ => rfl) _
  rw [responseValue, serialize_object]
  simp only [responseProperties, List.map_cons, List.map_nil, serialize_text, code,
    serialize_nullOr float (serialize_resourceValue float)]
  rfl

end Bytes

section Messages

variable (float : FloatText φ)

/-- PHP's functions, as the server uses them. -/
def php : Serializer (Option (Datum φ)) where
  serialize := serializeResponse (dataFormat float)
  unserialize s := (unserialize float s).bind wrapperOf

/-- PHP's functions, as the client uses them. -/
def clientPhp : WholeMessages.ClientSerializer (Datum φ) where
  serialize := serializeWrapper (dataFormat float)
  unserialize s := (unserialize float s).bind responseOf

theorem clientPhp_serialize (w : ResourceWrapper (Option (Datum φ))) :
    (clientPhp float).serialize w = serialize float (wrapperValue w) :=
  (serialize_wrapperValue float w).symm

theorem php_serialize (w : ResponseWrapperImpl (Option (Datum φ))) :
    (php float).serialize w = serialize float (responseValue w) :=
  (serialize_responseValue float w).symm

theorem php_unserialize (s : Bytes) :
    (php float).unserialize s = (unserialize float s).bind wrapperOf := rfl

theorem clientPhp_unserialize (s : Bytes) :
    (clientPhp float).unserialize s = (unserialize float s).bind responseOf := rfl

theorem request_text_back (w : ResourceWrapper (Option (Datum φ))) (more : Bytes) :
    unserialize float ((clientPhp float).serialize w ++ more) = some (wrapperValue w) := by
  rw [clientPhp_serialize]
  exact unserialize_serialize float ⟨wrapperValue w, wrapper_proper w⟩ more

theorem request_back (w : ResourceWrapper (Option (Datum φ))) (more : Bytes) :
    (php float).unserialize ((clientPhp float).serialize w ++ more) = some w := by
  rw [php_unserialize, request_text_back, Option.bind_some]
  exact wrapperOf_wrapperValue w

/-- A front part of a request is no text of a value. -/
theorem request_text_cut (w : ResourceWrapper (Option (Datum φ))) {p : Bytes}
    (front : p <+: (clientPhp float).serialize w) (cut : p ≠ (clientPhp float).serialize w) :
    unserialize float p = none := by
  rw [clientPhp_serialize] at front cut
  exact unserialize_cut float ⟨wrapperValue w, wrapper_proper w⟩ front cut

theorem request_cut (w : ResourceWrapper (Option (Datum φ))) {p : Bytes}
    (front : p <+: (clientPhp float).serialize w) (cut : p ≠ (clientPhp float).serialize w) :
    (php float).unserialize p = none := by
  rw [php_unserialize, request_text_cut float w front cut, Option.bind_none]

/-- The codes of the server are integers of 64 bits. -/
theorem code_bounded (pool : Pool (Option (Datum φ))) (q : Request (Option (Datum φ))) :
    ∀ n, (serve pool q).1.responseCode = some n → clamp n = n := by
  intro n code
  rw [serve_reply] at code
  cases o : q.outcome (pool q.key) with
  | error message =>
    rw [o] at code
    cases code
    rfl
  | ok p =>
    rw [o] at code
    cases code
    rfl

variable {w : ResponseWrapperImpl (Option (Datum φ))}

theorem response_back (code : ∀ n, w.responseCode = some n → clamp n = n) (more : Bytes) :
    (clientPhp float).unserialize ((php float).serialize w ++ more) = some w := by
  have back := unserialize_serialize float ⟨responseValue w, response_proper code⟩ more
  rw [php_serialize, clientPhp_unserialize, back, Option.bind_some]
  exact responseOf_responseValue w

theorem response_cut (code : ∀ n, w.responseCode = some n → clamp n = n) {p : Bytes}
    (front : p <+: (php float).serialize w) (cut : p ≠ (php float).serialize w) :
    (clientPhp float).unserialize p = none := by
  rw [php_serialize] at front cut
  have fails := unserialize_cut float ⟨responseValue w, response_proper code⟩ front cut
  rw [clientPhp_unserialize, fails, Option.bind_none]

/-- The server unserializes the wrapper that a client serialized, and a client
the answer that the server serialized, whatever stands behind it; from a text
that was cut they get `FALSE`. -/
theorem messages_round_trip :
    (∀ (w : ResourceWrapper (Option (Datum φ))) (more : Bytes) (n : ℕ),
      (php float).unserialize ((clientPhp float).serialize w ++ more) = some w ∧
      (n < ((clientPhp float).serialize w).length →
        (php float).unserialize (((clientPhp float).serialize w).take n) = none)) ∧
    ∀ (pool : Pool (Option (Datum φ))) (q : Request (Option (Datum φ))) (more : Bytes) (n : ℕ),
      (clientPhp float).unserialize ((php float).serialize (serve pool q).1 ++ more) =
        some (serve pool q).1 ∧
      (n < ((php float).serialize (serve pool q).1).length →
        (clientPhp float).unserialize (((php float).serialize (serve pool q).1).take n) = none) := by
  have shorter : ∀ {s : Bytes} {n : ℕ}, n < s.length → s.take n ≠ s := by
    intro s n less same
    have lengths := congrArg List.length same
    rw [List.length_take] at lengths
    omega
  constructor
  · intro w more n
    refine ⟨request_back float w more, fun less => ?_⟩
    exact request_cut float w (List.take_prefix n _) (shorter less)
  · intro pool q more n
    have code := code_bounded pool q
    refine ⟨response_back float code more, fun less => ?_⟩
    exact response_cut float code (List.take_prefix n _) (shorter less)

end Messages

end WireMessages
