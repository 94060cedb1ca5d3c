import Anyem.PhpValues
import Anyem.Readers
import Anyem.Serialization

/-!
# Values through serialize and unserialize

The text of a value starts with a letter for its type and says how long it is,
how many entries it has, or where it ends. So `unserialize` gets back what
`serialize` wrote, whatever stands behind it, and gets nothing from a text that
was cut. Values are trees: no object stands in two places, nothing is a
reference, and no class has a format of its own, so the forms `r:`, `R:`, `C:`
and `E:` are missing. Nothing limits how deep a value is nested, as before PHP
7.4; since then `unserialize_max_depth` does, which is 4096 if nobody sets it.
-/

namespace SerializedValues

open Readers Resource Serialization
open PhpValues (isDigit digitsValue)

/-- A key of an array, or the name of a property. -/
inductive Key where
  | int (n : ℤ)
  | string (s : Bytes)
  deriving DecidableEq

mutual

/-- A value; `φ` is the type of floats. -/
inductive Value (φ : Type) where
  | null
  | bool (b : Bool)
  | int (n : ℤ)
  | float (x : φ)
  | string (s : Bytes)
  | array (entries : Entries φ)
  | object (className : Bytes) (properties : Entries φ)

/-- The entries of an array or the properties of an object, in their order. -/
inductive Entries (φ : Type) where
  | nil
  | cons (key : Key) (value : Value φ) (rest : Entries φ)

end

/-- How floats are written: so that they are read back, and without the letter
that ends them. -/
structure FloatText (φ : Type) where
  text : φ → Bytes
  read : Bytes → Option φ
  read_text : ∀ x, read (text x) = some x
  plain : ∀ x, (59 : UInt8) ∉ text x

variable {φ : Type}

namespace Entries

def length : Entries φ → ℕ
  | .nil => 0
  | .cons _ _ rest => rest.length + 1

def keys : Entries φ → List Key
  | .nil => []
  | .cons key _ rest => key :: rest.keys

def append : Entries φ → Entries φ → Entries φ
  | .nil, more => more
  | .cons key value rest, more => .cons key value (rest.append more)

/-- Assign the value at a key: in the place of the old one, or at the end. -/
def enter (key : Key) (value : Value φ) : Entries φ → Entries φ
  | .nil => .cons key value .nil
  | .cons k v rest => if k = key then .cons k value rest else .cons k v (rest.enter key value)

def find? (key : Key) : Entries φ → Option (Value φ)
  | .nil => none
  | .cons k v rest => if k = key then some v else rest.find? key

end Entries

section Text

def intText : ℤ → Bytes
  | .ofNat n => decimal n
  | .negSucc n => ascii "-" ++ decimal (n + 1)

/-- The number that a text of digits stands for. -/
def numberOf (text : Bytes) : Option ℕ :=
  if text ≠ [] ∧ text.all isDigit = true then some (digitsValue text) else none

/-- The integer that a text of digits stands for, perhaps behind a sign. -/
def integerOf : Bytes → Option ℤ
  | 45 :: text => (numberOf text).map fun n => -n
  | 43 :: text => (numberOf text).map fun n => n
  | text => (numberOf text).map fun n => n

/-- The nearest integer that 64 bits hold. -/
def clamp (n : ℤ) : ℤ := max (-2 ^ 63) (min n (2 ^ 63 - 1))

/-- As the key of an array, a string that is the text of an integer is this
integer. -/
def arrayKey : Key → Key
  | .int n => .int n
  | .string s => match integerOf s with
    | some n => if intText n = s ∧ clamp n = n then .int n else .string s
    | none => .string s

/-- As the name of a property, an integer is its text. -/
def propertyName : Key → Key
  | .int n => .string (intText n)
  | .string s => .string s

end Text

section Serialize

def quoted (s : Bytes) : Bytes := decimal s.length ++ ascii ":\"" ++ s ++ ascii "\""

def serializeKey : Key → Bytes
  | .int n => serializeInt n
  | .string s => serializeString s

mutual

def serialize (float : FloatText φ) : Value φ → Bytes
  | .null => serializeNull
  | .bool b => serializeBool b
  | .int n => serializeInt n
  | .float x => ascii "d:" ++ float.text x ++ ascii ";"
  | .string s => serializeString s
  | .array entries =>
    ascii "a:" ++ decimal entries.length ++ ascii ":\x7b" ++ serializeEntries float entries ++
      ascii "\x7d"
  | .object className properties =>
    ascii "O:" ++ quoted className ++ ascii ":" ++ decimal properties.length ++ ascii ":\x7b" ++
      serializeEntries float properties ++ ascii "\x7d"

def serializeEntries (float : FloatText φ) : Entries φ → Bytes
  | .nil => []
  | .cons key value rest =>
    serializeKey key ++ serialize float value ++ serializeEntries float rest

end

end Serialize

section Unserialize

inductive Tag where
  | null | bool | int | float | string | array | object
  deriving DecidableEq

def Tag.letter : Tag → UInt8
  | .null => 78
  | .bool => 98
  | .int => 105
  | .float => 100
  | .string => 115
  | .array => 97
  | .object => 79

def Tag.ofLetter (b : UInt8) : Option Tag :=
  [Tag.null, .bool, .int, .float, .string, .array, .object].find? fun tag => tag.letter = b

def colon : UInt8 := 58
def semicolon : UInt8 := 59

def readTag : Reader UInt8 Tag := do
  let b ← letter
  given (Tag.ofLetter b)

def readNumber (stop : UInt8) : Reader UInt8 ℕ := do
  let text ← upTo stop
  given (numberOf text)

def readInteger : Reader UInt8 ℤ := do
  let text ← upTo semicolon
  let n ← given (integerOf text)
  return clamp n

def readBool : Reader UInt8 Bool := do
  let b ← letter
  literal [semicolon]
  given (if b = 48 then some false else if b = 49 then some true else none)

def readQuoted : Reader UInt8 Bytes := do
  let n ← readNumber colon
  literal (ascii "\"")
  let s ← word n
  literal (ascii "\"")
  return s

def readKey : Reader UInt8 Key := do
  let tag ← readTag
  literal [colon]
  match tag with
  | .int => do
    let n ← readInteger
    return .int n
  | .string => do
    let s ← readQuoted
    literal [semicolon]
    return .string s
  | _ => nothing

/-- As many entries as are asked for, entered one by one. -/
def readEntries (item : Reader UInt8 (Value φ)) (normal : Key → Key) :
    ℕ → Entries φ → Reader UInt8 (Entries φ)
  | 0, entries => pure entries
  | n + 1, entries => do
    let key ← readKey
    let value ← item
    readEntries item normal n (entries.enter (normal key) value)

def readBody (item : Reader UInt8 (Value φ)) (normal : Key → Key) : Reader UInt8 (Entries φ) := do
  let n ← readNumber colon
  literal (ascii "\x7b")
  let entries ← readEntries item normal n .nil
  literal (ascii "\x7d")
  return entries

/-- A value that is not nested deeper than the fuel. -/
def readValue (float : FloatText φ) : ℕ → Reader UInt8 (Value φ)
  | 0 => nothing
  | fuel + 1 => do
    let tag ← readTag
    match tag with
    | .null => do
      literal [semicolon]
      return .null
    | .bool => do
      literal [colon]
      let b ← readBool
      return .bool b
    | .int => do
      literal [colon]
      let n ← readInteger
      return .int n
    | .float => do
      literal [colon]
      let text ← upTo semicolon
      let x ← given (float.read text)
      return .float x
    | .string => do
      literal [colon]
      let s ← readQuoted
      literal [semicolon]
      return .string s
    | .array => do
      literal [colon]
      let entries ← readBody (readValue float fuel) arrayKey
      return .array entries
    | .object => do
      literal [colon]
      let className ← readQuoted
      literal [colon]
      let properties ← readBody (readValue float fuel) propertyName
      return .object className properties

/-- `unserialize`, with `none` for `FALSE` on a text it cannot read. What stands
behind the value is not looked at. -/
def unserialize (float : FloatText φ) (s : Bytes) : Option (Value φ) :=
  (readValue float s.length s).map Prod.fst

end Unserialize

section Proper

def Value.isNull : Value φ → Bool
  | .null => true
  | _ => false

/-- A key occurs once. -/
def Entries.distinct : Entries φ → Bool
  | .nil => true
  | .cons key _ rest => decide (key ∉ rest.keys) && rest.distinct

def Entries.normal (normal : Key → Key) (entries : Entries φ) : Bool :=
  entries.keys.all fun key => decide (normal key = key)

def Key.bounded : Key → Bool
  | .int n => decide (clamp n = n)
  | .string _ => true

mutual

/-- A value as PHP keeps it: integers have 64 bits, the keys of an array and the
names of properties are different and normal. -/
def Value.proper : Value φ → Bool
  | .null => true
  | .bool _ => true
  | .int n => decide (clamp n = n)
  | .float _ => true
  | .string _ => true
  | .array entries => entries.distinct && entries.normal arrayKey && entries.proper
  | .object _ properties =>
    properties.distinct && properties.normal propertyName && properties.proper

def Entries.proper : Entries φ → Bool
  | .nil => true
  | .cons key value rest => key.bounded && value.proper && rest.proper

end

end Proper

end SerializedValues
