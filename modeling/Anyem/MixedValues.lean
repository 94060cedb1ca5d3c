import Anyem.Resource

/-!
# Values of any type

PHP checks no types. A client may send any value, and any property of an object
in it may hold any value. The code of the server asks a value what it is in a
string, whether it is `TRUE`, `FALSE` or another value, whether it equals an
action, and what the properties are when it is an object of one of the classes
that the server knows. Floats, arrays and objects are left as they are in `ν`,
and PHP answers for them.
-/

namespace MixedRequests

open Resource

inductive Mixed (ν : Type) where
  | null
  | bool (b : Bool)
  | int (n : ℤ)
  | string (s : Bytes)
  | other (x : ν)

/-- The properties of a `ResourceWrapper`. -/
structure WrapperObject (ν : Type) where
  resource : Mixed ν
  action : Mixed ν

/-- The properties that the getters of a `ResourceIdentifierImpl` return. -/
structure IdentifierObject (ν : Type) where
  url : Mixed ν
  nameSpace : Mixed ν
  name : Mixed ν

/-- The properties of a `ResourceImpl`. -/
structure ResourceObject (ν : Type) where
  resourceIdentifier : Mixed ν
  data : Mixed ν
  reserved : Mixed ν
  reservationDate : Mixed ν
  reservationTime : Mixed ν
  unreservationDate : Mixed ν
  unreservationTime : Mixed ν
  transactionId : Mixed ν

/-- The properties of a `ResponseWrapperImpl`. -/
structure ResponseObject (ν : Type) where
  resource : Option (ResourceObject ν)
  errorMessage : Option Bytes
  responseCode : Option Int

/-- What PHP makes of floats, arrays and objects. -/
structure Php (ν : Type) where
  /-- PHP 8 does not find 0 equal to a word. -/
  eight : Bool
  /-- The value in a string, with `none` for an object that has no text. -/
  text : ν → Option Bytes
  /-- `==` with a word. -/
  equals : ν → Bytes → Bool
  /-- `===`. -/
  identical : ν → ν → Bool
  /-- `print_r` into a string. -/
  printR : Mixed ν → Bytes
  /-- The properties of an object of the class `ResourceWrapper`. -/
  wrapper : ν → Option (WrapperObject ν)
  /-- The properties of an object of the class `ResourceImpl`. -/
  resource : ν → Option (ResourceObject ν)
  /-- The properties behind the getters of a `ResourceIdentifierImpl`, which a
  `ResourceImpl` inherits. -/
  identifier : ν → Option (IdentifierObject ν)

variable {ν : Type}

namespace Mixed

/-- What a look at the object gives, with `none` for a value that is no object. -/
def view {α : Type} (look : ν → Option α) : Mixed ν → Option α
  | .other x => look x
  | _ => none

def isTrue : Mixed ν → Bool
  | .bool b => b
  | _ => false

def isFalse : Mixed ν → Bool
  | .bool b => !b
  | _ => false

theorem not_isTrue {v : Mixed ν} (isFalse : v.isFalse = true) : ¬ v.isTrue = true := by
  cases v with
  | bool b =>
    cases b with
    | false => exact Bool.false_ne_true
    | true => cases isFalse
  | null | int n | string s | other x => exact Bool.false_ne_true

variable (php : Php ν)

/-- The value inside a string. -/
def text : Mixed ν → Option Bytes
  | .null => some []
  | .bool b => some (if b then ascii "1" else [])
  | .int n => some (ascii (toString n))
  | .string s => some s
  | .other x => php.text x

/-- `==` with a word, which is not empty and does not start like a number. -/
def equals (word : Bytes) : Mixed ν → Bool
  | .null => false
  | .bool b => b
  | .int n => !php.eight && decide (n = 0)
  | .string s => decide (s = word)
  | .other x => php.equals x word

def identical : Mixed ν → Mixed ν → Bool
  | .null, .null => true
  | .bool a, .bool b => decide (a = b)
  | .int m, .int n => decide (m = n)
  | .string s, .string t => decide (s = t)
  | .other x, .other y => php.identical x y
  | _, _ => false

end Mixed

end MixedRequests
