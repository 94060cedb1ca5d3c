import Anyem.Framing

/-!
# The serialized messages

What `serialize` writes for the two wrappers and for what is inside them. An
object is written with the name of its class and with every private property
under the name of the class that declares it, so a resource comes with the
three properties that it inherits and never sets. They stand last, as up to PHP
8.0; from 8.1 on they stand first. The lengths depend on which properties are
`NULL`, and not on the order.
-/

namespace Serialization

open Resource Framing

variable {δ : Type}

/-- The data as they are written inside a request and inside a response. They
differ at most in the numbers of back references, which count from the front of
the message. -/
structure DataFormat (δ : Type) where
  inRequest : δ → Bytes
  inResponse : δ → Bytes

section Format

def decimal (n : ℕ) : Bytes := (Nat.toDigits 10 n).map fun c => UInt8.ofNat c.toNat

def serializeNull : Bytes := ascii "N;"

def serializeString (s : Bytes) : Bytes :=
  ascii "s:" ++ decimal s.length ++ ascii ":\"" ++ s ++ ascii "\";"

def serializeBool (b : Bool) : Bytes := if b then ascii "b:1;" else ascii "b:0;"

def serializeInt : ℤ → Bytes
  | .ofNat n => ascii "i:" ++ decimal n ++ ascii ";"
  | .negSucc n => ascii "i:-" ++ decimal (n + 1) ++ ascii ";"

/-- A value or `NULL`. -/
def orNull {α : Type} (serialize : α → Bytes) : Option α → Bytes
  | none => serializeNull
  | some a => serialize a

/-- A private property, under its class and its name. -/
def property (declaring name : Bytes) (value : Bytes) : Bytes :=
  serializeString ([0] ++ declaring ++ [0] ++ name) ++ value

def object (className : Bytes) (properties : List Bytes) : Bytes :=
  ascii "O:" ++ decimal className.length ++ ascii ":\"" ++ className ++ ascii "\":" ++
    decimal properties.length ++ ascii ":\x7b" ++ properties.flatten ++ ascii "\x7d"

end Format

section Messages

def serializeIdentifier (i : ResourceIdentifierImpl) : Bytes :=
  let className := ascii "ResourceIdentifierImpl"
  object className [
    property className (ascii "_url_s") (serializeString i.url),
    property className (ascii "_name_space_s") (serializeString i.nameSpace),
    property className (ascii "_name_s") (serializeString i.name)]

def serializeResource (serializeData : δ → Bytes) (r : ResourceImpl δ) : Bytes :=
  let className := ascii "ResourceImpl"
  let parent := ascii "ResourceIdentifierImpl"
  object className [
    property className (ascii "_resourceIdentifier")
      (orNull serializeIdentifier r.resourceIdentifier),
    property className (ascii "_data_m") (serializeData r.data),
    property className (ascii "_reserved_b") (serializeBool r.reserved),
    property className (ascii "_reservation_date") (orNull serializeString r.reservationDate),
    property className (ascii "_reservation_time") (orNull serializeString r.reservationTime),
    property className (ascii "_unreservation_date") (orNull serializeString r.unreservationDate),
    property className (ascii "_unreservation_time") (orNull serializeString r.unreservationTime),
    property className (ascii "_transaction_id_l") (orNull serializeString r.transactionId),
    property parent (ascii "_url_s") serializeNull,
    property parent (ascii "_name_space_s") serializeNull,
    property parent (ascii "_name_s") serializeNull]

def serializeWrapper (data : DataFormat δ) (w : ResourceWrapper δ) : Bytes :=
  let className := ascii "ResourceWrapper"
  object className [
    property className (ascii "_action") (serializeString w.action),
    property className (ascii "_resource")
      (orNull (serializeResource data.inRequest) w.resource)]

def serializeResponse (data : DataFormat δ) (w : ResponseWrapperImpl δ) : Bytes :=
  let className := ascii "ResponseWrapperImpl"
  object className [
    property className (ascii "_resource")
      (orNull (serializeResource data.inResponse) w.resource),
    property className (ascii "_error_message") (orNull serializeString w.errorMessage),
    property className (ascii "_response_code") (orNull serializeInt w.responseCode)]

/-- What a client writes to the socket. -/
def request (data : DataFormat δ) (w : ResourceWrapper δ) : Bytes :=
  clientHeader ++ serializeWrapper data w

end Messages

section Lengths

theorem serializeString_length {s : Bytes} {n : ℕ} (size : s.length = n) :
    (serializeString s).length = n + (decimal n).length + 6 := by
  have letters : (ascii "s:").length = 2 ∧ (ascii ":\"").length = 2 ∧ (ascii "\";").length = 2 := by
    decide
  simp only [serializeString, List.length_append, letters, size]
  omega

example : serializeString (ascii "PUT") = ascii "s:3:\"PUT\";" := by decide

theorem serializeBool_length (b : Bool) : (serializeBool b).length = 4 := by
  cases b with
  | false => decide
  | true => decide

/-- What stands before the value of a property has the same length for all values. -/
theorem property_length {declaring name : Bytes} {n : ℕ} (value : Bytes)
    (empty : (property declaring name []).length = n) :
    (property declaring name value).length = n + value.length := by
  simp only [property, List.length_append, List.length_nil] at empty ⊢
  omega

/-- What stands around the properties has the same length for the same number of
them. -/
theorem object_length {className : Bytes} {properties : List Bytes} {n : ℕ}
    (empty : (object className (properties.map fun _ => [])).length = n) :
    (object className properties).length = n + properties.flatten.length := by
  have none : (properties.map fun _ => ([] : Bytes)).flatten = [] := by simp
  simp only [object, List.length_append, List.length_map, none, List.length_nil] at empty ⊢
  omega

theorem orNull_none {α : Type} (serialize : α → Bytes) : (orNull serialize none).length = 2 := rfl

theorem orNull_some {s : Bytes} {n : ℕ} (size : s.length = n) :
    (orNull serializeString (some s)).length = n + (decimal n).length + 6 :=
  serializeString_length size

/-- The properties that can be `NULL` or not decide about the length of a resource. -/
theorem serializeResource_length (serializeData : δ → Bytes) (r : ResourceImpl δ) :
    (serializeResource serializeData r).length = 459 +
      (orNull serializeIdentifier r.resourceIdentifier).length + (serializeData r.data).length +
      (orNull serializeString r.reservationDate).length +
      (orNull serializeString r.reservationTime).length +
      (orNull serializeString r.unreservationDate).length +
      (orNull serializeString r.unreservationTime).length +
      (orNull serializeString r.transactionId).length := by
  simp only [serializeResource]
  rw [object_length (n := 25) (by simp only [List.map_cons, List.map_nil]; decide)]
  simp only [List.flatten_cons, List.flatten_nil, List.length_append, List.length_nil]
  rw [property_length (n := 41) _ (by decide), property_length (n := 29) _ (by decide),
    property_length (n := 33) _ (by decide), property_length (n := 39) _ (by decide),
    property_length (n := 39) _ (by decide), property_length (n := 41) _ (by decide),
    property_length (n := 41) _ (by decide), property_length (n := 39) _ (by decide),
    property_length (n := 38) _ (by decide), property_length (n := 45) _ (by decide),
    property_length (n := 39) _ (by decide), serializeBool_length]
  have null : serializeNull.length = 2 := by decide
  omega

/-- A request around a resource. -/
theorem request_length (data : DataFormat δ) (r : ResourceImpl δ) (action : Bytes) :
    (request data ⟨some r, action⟩).length = 152 + (serializeString action).length +
      (serializeResource data.inRequest r).length := by
  have header : clientHeader.length = 59 := by decide
  simp only [request, List.length_append, header, serializeWrapper]
  rw [object_length (n := 27) (by simp only [List.map_cons, List.map_nil]; decide)]
  simp only [List.flatten_cons, List.flatten_nil, List.length_append, List.length_nil]
  rw [property_length (n := 32) _ (by decide), property_length (n := 34) _ (by decide), orNull]
  omega

/-- A response with the code of success or of failure. -/
theorem serializeResponse_length (data : DataFormat δ) (resource : Option (ResourceImpl δ))
    (errorMessage : Option Bytes) {code : ℤ} (digit : (serializeInt code).length = 4) :
    (serializeResponse data ⟨resource, errorMessage, some code⟩).length = 159 +
      (orNull (serializeResource data.inResponse) resource).length +
      (orNull serializeString errorMessage).length := by
  simp only [serializeResponse]
  rw [object_length (n := 31) (by simp only [List.map_cons, List.map_nil]; decide)]
  simp only [List.flatten_cons, List.flatten_nil, List.length_append, List.length_nil]
  rw [property_length (n := 38) _ (by decide), property_length (n := 43) _ (by decide),
    property_length (n := 43) _ (by decide)]
  simp only [orNull, digit]
  omega

end Lengths

end Serialization
