import Anyem.SerializedValues

/-!
# Reading back the texts of values

Each piece of a text is read by the part of the reader that is made for it, and
the rules of readers put the pieces together. A text is read back as the value
that it was written for, its front parts are not read at all, and whatever is
read is a value that PHP can have.
-/

namespace SerializedValues

open Readers Resource Serialization
open PhpValues (isDigit digitsValue)

variable {φ : Type}

section Numbers

theorem digit_byte {c : Char} (digit : c.isDigit = true) :
    isDigit (UInt8.ofNat c.toNat) = true ∧ (UInt8.ofNat c.toNat).toNat = c.toNat := by
  have range : 48 ≤ c.toNat ∧ c.toNat ≤ 57 := by
    simp only [Char.isDigit, Bool.and_eq_true, decide_eq_true_eq] at digit
    exact ⟨UInt32.le_iff_toNat_le.mp digit.1, UInt32.le_iff_toNat_le.mp digit.2⟩
  have small : (UInt8.ofNat c.toNat).toNat = c.toNat := by
    rw [UInt8.toNat_ofNat']
    omega
  refine ⟨decide_eq_true ⟨?_, ?_⟩, small⟩
  · rw [UInt8.le_iff_toNat_le, small]
    exact range.1
  · rw [UInt8.le_iff_toNat_le, small]
    exact range.2

theorem decimal_digits (n : ℕ) : ∀ b ∈ decimal n, isDigit b = true := by
  intro b member
  obtain ⟨c, among, rfl⟩ := List.mem_map.mp member
  exact (digit_byte (Nat.isDigit_of_mem_toDigits (b := 10) (by decide) (by decide) among)).1

theorem decimal_ne_nil (n : ℕ) : decimal n ≠ [] := by
  rw [decimal, ne_eq, List.map_eq_nil_iff]
  exact Nat.toDigits_ne_nil

theorem digitsValue_decimal (n : ℕ) : digitsValue (decimal n) = n := by
  have folded : ∀ (cs : List Char) (m : ℕ), (∀ c ∈ cs, c.isDigit = true) →
      (cs.map fun c => UInt8.ofNat c.toNat).foldl (fun n b => 10 * n + (b.toNat - 48)) m =
        Nat.ofDigitChars 10 cs m := by
    intro cs
    induction cs with
    | nil =>
      intro m _
      rfl
    | cons c cs ih =>
      intro m digits
      rw [List.map_cons, List.foldl_cons, Nat.ofDigitChars_cons,
        (digit_byte (digits c List.mem_cons_self)).2]
      exact ih _ fun c' member => digits c' (List.mem_cons_of_mem c member)
  rw [digitsValue, decimal, folded _ 0 fun c member =>
    Nat.isDigit_of_mem_toDigits (b := 10) (by decide) (by decide) member]
  exact Nat.ofDigitChars_ten_toDigits

theorem numberOf_decimal (n : ℕ) : numberOf (decimal n) = some n := by
  rw [numberOf, if_pos ⟨decimal_ne_nil n, List.all_eq_true.mpr (decimal_digits n)⟩,
    digitsValue_decimal]

theorem not_mem_decimal {b : UInt8} (other : isDigit b = false) (n : ℕ) : b ∉ decimal n := by
  intro member
  rw [decimal_digits n b member] at other
  cases other

theorem integerOf_intText (n : ℤ) : integerOf (intText n) = some n := by
  cases n with
  | ofNat n =>
    rw [intText]
    cases digits : decimal n with
    | nil => exact False.elim (decimal_ne_nil n digits)
    | cons b text =>
      have number := numberOf_decimal n
      have digit := decimal_digits n b (by rw [digits]; exact List.mem_cons_self)
      rw [digits] at number
      have plain : b ≠ 45 ∧ b ≠ 43 := by
        constructor
        · rintro rfl
          exact absurd digit (by decide)
        · rintro rfl
          exact absurd digit (by decide)
      rw [integerOf]
      · rw [number]
        rfl
      · exact fun text same => plain.1 (List.cons.inj same).1
      · exact fun text same => plain.2 (List.cons.inj same).1
  | negSucc n =>
    have minus : intText (.negSucc n) = 45 :: decimal (n + 1) := rfl
    rw [minus, integerOf, numberOf_decimal]
    rfl

theorem semicolon_not_mem_intText (n : ℤ) : semicolon ∉ intText n := by
  cases n with
  | ofNat n => exact not_mem_decimal (by decide) n
  | negSucc n =>
    intro member
    rcases List.mem_cons.mp member with same | member
    · exact absurd same (by decide)
    · exact not_mem_decimal (by decide) _ member

/-- Floats that are whole numbers can be written like integers. -/
example : Nonempty (FloatText ℤ) :=
  ⟨⟨intText, integerOf, integerOf_intText, semicolon_not_mem_intText⟩⟩

end Numbers

section Tokens

theorem reads_tag (tag : Tag) : Reads readTag [tag.letter] tag := by
  have known : Tag.ofLetter tag.letter = some tag := by
    cases tag <;> rfl
  exact (Reads.letter _).ended (Reads.given known)

theorem reads_number (n : ℕ) : Reads (readNumber colon) (decimal n ++ [colon]) n :=
  (Reads.upTo (not_mem_decimal (by decide) n)).ended (Reads.given (numberOf_decimal n))

theorem reads_integer {n : ℤ} (bounded : clamp n = n) :
    Reads readInteger (intText n ++ [semicolon]) n := by
  have reads : Reads readInteger (intText n ++ [semicolon]) (clamp n) :=
    (Reads.upTo (semicolon_not_mem_intText n)).ended
      ((Reads.given (integerOf_intText n)).ended (Reads.pure _))
  rwa [bounded] at reads

theorem reads_bool (b : Bool) : Reads readBool (if b then ascii "1;" else ascii "0;") b := by
  cases b with
  | false => exact (Reads.letter 48).bind ((Reads.literal _).ended (Reads.given rfl))
  | true => exact (Reads.letter 49).bind ((Reads.literal _).ended (Reads.given rfl))

theorem reads_quoted (s : Bytes) : Reads readQuoted (quoted s) s := by
  have written : quoted s = (decimal s.length ++ [colon]) ++ (ascii "\"" ++ (s ++ ascii "\"")) := by
    simp [quoted, show ascii ":\"" = [colon] ++ ascii "\"" from rfl]
  rw [written]
  exact (reads_number s.length).bind ((Reads.literal _).bind ((Reads.word rfl).bind
    ((Reads.literal _).ended (Reads.pure s))))

theorem serializeInt_eq (n : ℤ) :
    serializeInt n = [Tag.int.letter] ++ ([colon] ++ (intText n ++ [semicolon])) := by
  cases n <;> rfl

theorem serializeString_eq (s : Bytes) :
    serializeString s = [Tag.string.letter] ++ ([colon] ++ (quoted s ++ [semicolon])) := by
  simp only [serializeString, quoted, List.append_assoc]
  rfl

theorem reads_key {key : Key} (bounded : key.bounded = true) :
    Reads readKey (serializeKey key) key := by
  cases key with
  | int n =>
    rw [serializeKey, serializeInt_eq]
    exact (reads_tag .int).bind ((Reads.literal _).bind
      ((reads_integer (of_decide_eq_true bounded)).ended (Reads.pure _)))
  | string s =>
    rw [serializeKey, serializeString_eq]
    exact (reads_tag .string).bind ((Reads.literal _).bind
      ((reads_quoted s).bind ((Reads.literal _).ended (Reads.pure _))))

end Tokens

section Entering

/-- Induction over the entries alone. -/
@[elab_as_elim, induction_eliminator]
theorem Entries.induction {motive : Entries φ → Prop} (nil : motive .nil)
    (cons : ∀ key value rest, motive rest → motive (.cons key value rest)) :
    ∀ entries, motive entries
  | .nil => nil
  | .cons key value rest => cons key value rest (Entries.induction nil cons rest)

@[simp] theorem Entries.append_nil (entries : Entries φ) : entries.append .nil = entries := by
  induction entries with
  | nil => rfl
  | cons key value rest ih => rw [Entries.append, ih]

theorem Entries.append_assoc (entries more most : Entries φ) :
    (entries.append more).append most = entries.append (more.append most) := by
  induction entries with
  | nil => rfl
  | cons key value rest ih => rw [Entries.append, Entries.append, Entries.append, ih]

@[simp] theorem Entries.keys_append (entries more : Entries φ) :
    (entries.append more).keys = entries.keys ++ more.keys := by
  induction entries with
  | nil => rfl
  | cons key value rest ih => rw [Entries.append, keys, keys, ih, List.cons_append]

/-- A new key gets its place at the end. -/
theorem Entries.enter_new {key : Key} (value : Value φ) {entries : Entries φ}
    (new : key ∉ entries.keys) :
    entries.enter key value = entries.append (.cons key value .nil) := by
  induction entries with
  | nil => rfl
  | cons k v rest ih =>
    have other : ¬ k = key := fun same => new (same ▸ List.mem_cons_self)
    rw [enter, if_neg other, ih fun member => new (List.mem_cons_of_mem k member)]
    rfl

end Entering

section RoundTrip

variable {float : FloatText φ}

mutual

def Value.depth : Value φ → ℕ
  | .null => 1
  | .bool _ => 1
  | .int _ => 1
  | .float _ => 1
  | .string _ => 1
  | .array entries => entries.depth + 1
  | .object _ properties => properties.depth + 1

def Entries.depth : Entries φ → ℕ
  | .nil => 0
  | .cons _ value rest => max value.depth rest.depth

end

/-- What the entries read so far and the ones to come have to be. -/
structure Follow (normal : Key → Key) (before entries : Entries φ) : Prop where
  new : ∀ key ∈ entries.keys, key ∉ before.keys
  distinct : entries.distinct = true
  normal : entries.normal normal = true

theorem Follow.cons {normal : Key → Key} {before rest : Entries φ} {key : Key} {value : Value φ}
    (follow : Follow normal before (.cons key value rest)) :
    before.enter (normal key) value = before.append (.cons key value .nil) ∧
      Follow normal (before.append (.cons key value .nil)) rest := by
  obtain ⟨new, distinct, isNormal⟩ := follow
  simp only [Entries.distinct, Bool.and_eq_true, decide_eq_true_eq] at distinct
  simp only [Entries.normal, Entries.keys, List.all_cons, Bool.and_eq_true,
    decide_eq_true_eq] at isNormal
  have first : key ∉ before.keys := new key List.mem_cons_self
  refine ⟨by rw [isNormal.1, Entries.enter_new value first], ?_, distinct.2, isNormal.2⟩
  intro k member
  rw [Entries.keys_append, List.mem_append]
  rintro (early | late)
  · exact new k (List.mem_cons_of_mem key member) early
  · rw [Entries.keys, Entries.keys, List.mem_singleton] at late
    exact distinct.1 (late ▸ member)

/-- The count, the brace, the entries and the brace. -/
theorem reads_body {item : Reader UInt8 (Value φ)} {normal : Key → Key} {entries : Entries φ}
    (reads : Reads (readEntries item normal entries.length .nil) (serializeEntries float entries)
      entries) :
    Reads (readBody item normal) ((decimal entries.length ++ [colon]) ++
      (ascii "\x7b" ++ (serializeEntries float entries ++ ascii "\x7d"))) entries :=
  (reads_number entries.length).bind ((Reads.literal _).bind
    (reads.bind ((Reads.literal _).ended (Reads.pure entries))))

theorem serialize_array_eq (entries : Entries φ) :
    serialize float (.array entries) = [Tag.array.letter] ++ ([colon] ++
      ((decimal entries.length ++ [colon]) ++
        (ascii "\x7b" ++ (serializeEntries float entries ++ ascii "\x7d")))) := by
  simp only [serialize, List.append_assoc]
  rfl

theorem serialize_object_eq (className : Bytes) (properties : Entries φ) :
    serialize float (.object className properties) = [Tag.object.letter] ++ ([colon] ++
      (quoted className ++ ([colon] ++ ((decimal properties.length ++ [colon]) ++
        (ascii "\x7b" ++ (serializeEntries float properties ++ ascii "\x7d")))))) := by
  simp only [serialize, List.append_assoc]
  rfl

theorem Follow.start {normal : Key → Key} {entries : Entries φ}
    (distinct : entries.distinct = true) (isNormal : entries.normal normal = true) :
    Follow normal .nil entries where
  new := by
    intro key _ member
    cases member
  distinct := distinct
  normal := isNormal

theorem Value.depth_pos (value : Value φ) : 0 < value.depth := by
  cases value <;> simp [Value.depth]

mutual

theorem reads_value (value : Value φ) {fuel : ℕ} (proper : value.proper = true)
    (enough : value.depth ≤ fuel + 1) :
    Reads (readValue float (fuel + 1)) (serialize float value) value := by
  cases value with
  | null => exact (reads_tag .null).bind ((Reads.literal _).ended (Reads.pure _))
  | bool b =>
    have written : serialize float (.bool b) = [Tag.bool.letter] ++ ([colon] ++
        if b then ascii "1;" else ascii "0;") := by
      cases b <;> rfl
    rw [written]
    exact (reads_tag .bool).bind ((Reads.literal _).bind ((reads_bool b).ended (Reads.pure _)))
  | int n =>
    rw [serialize, serializeInt_eq]
    exact (reads_tag .int).bind ((Reads.literal _).bind
      ((reads_integer (of_decide_eq_true proper)).ended (Reads.pure _)))
  | float x =>
    have written : serialize float (.float x) =
        [Tag.float.letter] ++ ([colon] ++ (float.text x ++ [semicolon])) := by
      rw [serialize, List.append_assoc]
      rfl
    rw [written]
    exact (reads_tag .float).bind ((Reads.literal _).bind ((Reads.upTo (float.plain x)).ended
      ((Reads.given (float.read_text x)).ended (Reads.pure _))))
  | string s =>
    rw [serialize, serializeString_eq]
    exact (reads_tag .string).bind ((Reads.literal _).bind
      ((reads_quoted s).bind ((Reads.literal _).ended (Reads.pure _))))
  | array entries =>
    simp only [Value.proper, Bool.and_eq_true] at proper
    simp only [Value.depth, Nat.add_le_add_iff_right] at enough
    have body := reads_entries entries proper.2 (Follow.start proper.1.1 proper.1.2) enough
    rw [serialize_array_eq]
    exact (reads_tag .array).bind ((Reads.literal _).bind ((reads_body body).ended (Reads.pure _)))
  | object className properties =>
    simp only [Value.proper, Bool.and_eq_true] at proper
    simp only [Value.depth, Nat.add_le_add_iff_right] at enough
    have body := reads_entries properties proper.2 (Follow.start proper.1.1 proper.1.2) enough
    rw [serialize_object_eq]
    exact (reads_tag .object).bind ((Reads.literal _).bind ((reads_quoted className).bind
      ((Reads.literal _).bind ((reads_body body).ended (Reads.pure _)))))

theorem reads_entries (entries : Entries φ) {fuel : ℕ} {normal : Key → Key} {before : Entries φ}
    (proper : entries.proper = true) (follow : Follow normal before entries)
    (enough : entries.depth ≤ fuel) :
    Reads (readEntries (readValue float fuel) normal entries.length before)
      (serializeEntries float entries) (before.append entries) := by
  cases entries with
  | nil =>
    rw [Entries.append_nil]
    exact Reads.pure before
  | cons key value rest =>
    simp only [Entries.proper, Bool.and_eq_true] at proper
    simp only [Entries.depth] at enough
    obtain ⟨entered, follow'⟩ := follow.cons
    have deep := value.depth_pos
    obtain ⟨fuel, rfl⟩ := Nat.exists_eq_add_of_le' (show 1 ≤ fuel by omega)
    have first : Reads (readValue float (fuel + 1)) (serialize float value) value :=
      reads_value value proper.1.2 (by omega)
    have later : Reads (readEntries (readValue float (fuel + 1)) normal rest.length _)
        (serializeEntries float rest) _ := reads_entries rest proper.2 follow' (by omega)
    rw [Entries.append_assoc] at later
    rw [serializeEntries, List.append_assoc]
    refine (reads_key proper.1.1).bind (first.bind ?_)
    rw [entered]
    exact later

end

end RoundTrip

section Fuel

variable {float : FloatText φ}

theorem carries_tag : Carries readTag readTag := Carries.letter.bind fun _ => Carries.given _

theorem carries_number (stop : UInt8) : Carries (readNumber stop) (readNumber stop) :=
  (Carries.upTo stop).bind fun _ => Carries.given _

theorem carries_integer : Carries readInteger readInteger :=
  (Carries.upTo semicolon).bind fun _ => (Carries.given _).bind fun _ => Carries.pure _

theorem carries_bool : Carries readBool readBool :=
  Carries.letter.bind fun _ => (Carries.literal _).bind fun _ => Carries.given _

theorem carries_quoted : Carries readQuoted readQuoted :=
  (carries_number colon).bind fun n => (Carries.literal _).bind fun _ =>
    (Carries.word n).bind fun _ => (Carries.literal _).bind fun _ => Carries.pure _

theorem carries_key : Carries readKey readKey := by
  refine carries_tag.bind fun tag => (Carries.literal _).bind fun _ => ?_
  cases tag with
  | int => exact carries_integer.bind fun _ => Carries.pure _
  | string =>
    exact carries_quoted.bind fun _ => (Carries.literal _).bind fun _ => Carries.pure _
  | _ => exact Carries.nothing _

theorem carries_entries {item item' : Reader UInt8 (Value φ)} (carries : Carries item item')
    (normal : Key → Key) (n : ℕ) (entries : Entries φ) :
    Carries (readEntries item normal n entries) (readEntries item' normal n entries) := by
  induction n generalizing entries with
  | zero => exact Carries.pure entries
  | succ n ih => exact carries_key.bind fun _ => carries.bind fun _ => ih _

theorem carries_body {item item' : Reader UInt8 (Value φ)} (carries : Carries item item')
    (normal : Key → Key) : Carries (readBody item normal) (readBody item' normal) :=
  (carries_number colon).bind fun n => (Carries.literal _).bind fun _ =>
    (carries_entries carries normal n .nil).bind fun _ =>
      (Carries.literal _).bind fun _ => Carries.pure _

/-- More fuel and more text behind a value change nothing. -/
theorem carries_value {fuel more : ℕ} (enough : fuel ≤ more) :
    Carries (readValue float fuel) (readValue float more) := by
  induction fuel generalizing more with
  | zero => exact Carries.nothing _
  | succ fuel ih =>
    obtain ⟨more, rfl⟩ := Nat.exists_eq_add_of_le' (show 1 ≤ more by omega)
    have inner : Carries (readValue float fuel) (readValue float more) := ih (by omega)
    refine carries_tag.bind fun tag => ?_
    cases tag with
    | null => exact (Carries.literal _).bind fun _ => Carries.pure _
    | bool => exact (Carries.literal _).bind fun _ => carries_bool.bind fun _ => Carries.pure _
    | int => exact (Carries.literal _).bind fun _ => carries_integer.bind fun _ => Carries.pure _
    | float =>
      exact (Carries.literal _).bind fun _ => (Carries.upTo _).bind fun _ =>
        (Carries.given _).bind fun _ => Carries.pure _
    | string =>
      exact (Carries.literal _).bind fun _ => carries_quoted.bind fun _ =>
        (Carries.literal _).bind fun _ => Carries.pure _
    | array =>
      exact (Carries.literal _).bind fun _ => (carries_body inner _).bind fun _ => Carries.pure _
    | object =>
      exact (Carries.literal _).bind fun _ => carries_quoted.bind fun _ =>
        (Carries.literal _).bind fun _ => (carries_body inner _).bind fun _ => Carries.pure _

end Fuel

section Depth

variable {float : FloatText φ}

mutual

theorem depth_le (value : Value φ) : value.depth ≤ (serialize float value).length := by
  cases value with
  | null => exact (show 1 ≤ serializeNull.length by decide)
  | bool b =>
    rw [serialize, serializeBool_length, Value.depth]
    decide
  | int n =>
    rw [serialize, serializeInt_eq, List.length_append]
    exact Nat.le_add_right _ _
  | float x =>
    have letters : (ascii "d:").length = 2 := by decide
    rw [serialize, List.append_assoc, List.length_append, letters, Value.depth]
    omega
  | string s =>
    rw [serialize, serializeString_eq, List.length_append]
    exact Nat.le_add_right _ _
  | array entries =>
    have inner := entries_depth_le entries
    rw [serialize_array_eq]
    simp only [Value.depth, List.length_append, List.length_singleton]
    omega
  | object className properties =>
    have inner := entries_depth_le properties
    rw [serialize_object_eq]
    simp only [Value.depth, List.length_append, List.length_singleton]
    omega

theorem entries_depth_le (entries : Entries φ) :
    entries.depth ≤ (serializeEntries float entries).length := by
  cases entries with
  | nil => exact Nat.zero_le _
  | cons key value rest =>
    have first := depth_le value
    have later := entries_depth_le rest
    simp only [Entries.depth, serializeEntries, List.length_append]
    omega

end

end Depth

section Accepted

theorem clamp_clamp (n : ℤ) : clamp (clamp n) = clamp n := by
  simp only [clamp]
  omega

theorem arrayKey_bounded {key : Key} (bounded : key.bounded = true) :
    (arrayKey key).bounded = true := by
  cases key with
  | int n => exact bounded
  | string s =>
    rw [arrayKey]
    split
    · split
      · rename_i same
        exact decide_eq_true same.2
      · rfl
    · rfl

theorem arrayKey_arrayKey (key : Key) : arrayKey (arrayKey key) = arrayKey key := by
  cases key with
  | int n => rfl
  | string s =>
    have normal : arrayKey (.string s) = .string s ∨ ∃ n, arrayKey (.string s) = .int n := by
      rw [arrayKey]
      split
      · split
        · exact Or.inr ⟨_, rfl⟩
        · exact Or.inl rfl
      · exact Or.inl rfl
    rcases normal with same | ⟨n, same⟩
    · rw [same, same]
    · rw [same]
      rfl

/-- What makes keys normal, once for all. -/
structure Normal (normal : Key → Key) : Prop where
  again : ∀ key, normal (normal key) = normal key
  bounded : ∀ key, key.bounded = true → (normal key).bounded = true

theorem normal_arrayKey : Normal arrayKey := ⟨arrayKey_arrayKey, fun _ => arrayKey_bounded⟩

theorem normal_propertyName : Normal propertyName where
  again key := by cases key <;> rfl
  bounded key _ := by cases key <;> rfl

theorem keys_enter (key : Key) (value : Value φ) (entries : Entries φ) :
    (entries.enter key value).keys =
      if key ∈ entries.keys then entries.keys else entries.keys ++ [key] := by
  induction entries with
  | nil => rfl
  | cons k v rest ih =>
    rw [Entries.enter]
    by_cases here : k = key
    · rw [if_pos here, if_pos (here ▸ List.mem_cons_self)]
      rfl
    · have other : ¬ key = k := fun same => here same.symm
      rw [if_neg here, Entries.keys, ih]
      by_cases later : key ∈ rest.keys
      · rw [if_pos later]
        exact (if_pos (List.mem_cons_of_mem k later)).symm
      · rw [if_neg later]
        exact (if_neg (by simp [Entries.keys, other, later])).symm

/-- Entries that a proper value may have. -/
structure Entered (normal : Key → Key) (entries : Entries φ) : Prop where
  distinct : entries.distinct = true
  normal : entries.normal normal = true
  proper : entries.proper = true

theorem distinct_enter (key : Key) (value : Value φ) {entries : Entries φ}
    (distinct : entries.distinct = true) : (entries.enter key value).distinct = true := by
  induction entries with
  | nil => rfl
  | cons k v rest ih =>
    simp only [Entries.distinct, Bool.and_eq_true, decide_eq_true_eq] at distinct
    rw [Entries.enter]
    split
    · simp only [Entries.distinct, Bool.and_eq_true, decide_eq_true_eq]
      exact distinct
    · rename_i other
      simp only [Entries.distinct, Bool.and_eq_true, decide_eq_true_eq, ih distinct.2, and_true]
      rw [keys_enter]
      split
      · exact distinct.1
      · intro member
        rcases List.mem_append.mp member with early | late
        · exact distinct.1 early
        · exact other (List.mem_singleton.mp late)

theorem normal_enter {normal : Key → Key} {key : Key} (value : Value φ) {entries : Entries φ}
    (isNormal : normal key = key) (all : entries.normal normal = true) :
    (entries.enter key value).normal normal = true := by
  rw [Entries.normal, List.all_eq_true] at all ⊢
  intro k member
  rw [keys_enter] at member
  split at member
  · exact all k member
  · rcases List.mem_append.mp member with early | late
    · exact all k early
    · rw [List.mem_singleton.mp late, isNormal]
      exact decide_eq_true rfl

theorem proper_enter {key : Key} {value : Value φ} {entries : Entries φ}
    (bounded : key.bounded = true) (proper : value.proper = true)
    (all : entries.proper = true) : (entries.enter key value).proper = true := by
  induction entries with
  | nil => simp [Entries.enter, Entries.proper, bounded, proper]
  | cons k v rest ih =>
    simp only [Entries.proper, Bool.and_eq_true] at all
    rw [Entries.enter]
    split
    · simp [Entries.proper, all, proper]
    · simp [Entries.proper, all, ih all.2]

theorem Entered.enter {normal : Key → Key} (normalizes : Normal normal) {key : Key}
    {value : Value φ} {entries : Entries φ} (bounded : key.bounded = true)
    (proper : value.proper = true) (entered : Entered normal entries) :
    Entered normal (entries.enter (normal key) value) where
  distinct := distinct_enter _ value entered.distinct
  normal := normal_enter value (normalizes.again key) entered.normal
  proper := proper_enter (normalizes.bounded key bounded) proper entered.proper

theorem Entered.nil (normal : Key → Key) : Entered normal (.nil : Entries φ) := ⟨rfl, rfl, rfl⟩

theorem gives_integer : Gives readInteger fun n => clamp n = n :=
  Gives.behind fun _ => Gives.behind fun n => Gives.pure (clamp_clamp n)

theorem gives_key : Gives readKey fun key => key.bounded = true := by
  refine Gives.behind fun tag => Gives.behind fun _ => ?_
  cases tag with
  | int => exact gives_integer.bind fun n bounded => Gives.pure (decide_eq_true bounded)
  | string => exact Gives.behind fun s => Gives.behind fun _ => Gives.pure rfl
  | _ => exact Gives.nothing _

section Values

variable {item : Reader UInt8 (Value φ)} (proper : Gives item fun value => value.proper = true)
  {normal : Key → Key} (normalizes : Normal normal)

include proper normalizes

theorem gives_entries (n : ℕ) {entries : Entries φ} (entered : Entered normal entries) :
    Gives (readEntries item normal n entries) (Entered normal) := by
  induction n generalizing entries with
  | zero => exact Gives.pure entered
  | succ n ih =>
    exact gives_key.bind fun key bounded => proper.bind fun value properValue =>
      ih (entered.enter normalizes bounded properValue)

theorem gives_body : Gives (readBody item normal) (Entered normal) :=
  Gives.behind fun n => Gives.behind fun _ =>
    (gives_entries proper normalizes n (Entered.nil normal)).bind fun _ entered =>
      Gives.behind fun _ => Gives.pure entered

end Values

theorem gives_value (float : FloatText φ) (fuel : ℕ) :
    Gives (readValue float fuel) fun value => value.proper = true := by
  induction fuel with
  | zero => exact Gives.nothing _
  | succ fuel ih =>
    refine Gives.behind fun tag => ?_
    cases tag with
    | null => exact Gives.behind fun _ => Gives.pure rfl
    | bool => exact Gives.behind fun _ => Gives.behind fun _ => Gives.pure rfl
    | int =>
      exact Gives.behind fun _ => gives_integer.bind fun n bounded =>
        Gives.pure (decide_eq_true bounded)
    | float =>
      exact Gives.behind fun _ => Gives.behind fun _ => Gives.behind fun _ => Gives.pure rfl
    | string =>
      exact Gives.behind fun _ => Gives.behind fun _ => Gives.behind fun _ => Gives.pure rfl
    | array =>
      refine Gives.behind fun _ => (gives_body ih normal_arrayKey).bind fun entries entered => ?_
      exact Gives.pure (by simp [Value.proper, entered.distinct, entered.normal, entered.proper])
    | object =>
      refine Gives.behind fun _ => Gives.behind fun _ => Gives.behind fun _ =>
        (gives_body ih normal_propertyName).bind fun properties entered => ?_
      exact Gives.pure (by simp [Value.proper, entered.distinct, entered.normal, entered.proper])

end Accepted

section Texts

variable (float : FloatText φ)

/-- The values that PHP can have. -/
abbrev ProperValue (φ : Type) := {value : Value φ // value.proper = true}

/-- The text of a value is at least as long as the value is deep. -/
theorem reads_text (value : ProperValue φ) {n : ℕ} (enough : (serialize float value.1).length ≤ n) :
    Reads (readValue float n) (serialize float value.1) value.1 := by
  have deep : value.1.depth ≤ (serialize float value.1).length := depth_le value.1
  have positive := value.1.depth_pos
  obtain ⟨fuel, rfl⟩ := Nat.exists_eq_add_of_le' (show 1 ≤ n by omega)
  exact reads_value value.1 value.2 (by omega)

theorem unserialize_serialize (value : ProperValue φ) (more : Bytes) :
    unserialize float (serialize float value.1 ++ more) = some value.1 := by
  have reads := reads_text float value
    (show _ ≤ (serialize float value.1 ++ more).length by rw [List.length_append]; omega)
  rw [unserialize, reads more]
  rfl

/-- A text that was cut is not taken for the text of another value. -/
theorem unserialize_cut (value : ProperValue φ) {p : Bytes} (front : p <+: serialize float value.1)
    (cut : p ≠ serialize float value.1) : unserialize float p = none := by
  rw [unserialize, (reads_text float value le_rfl).cut_fails (carries_value front.length_le) front
    cut]
  rfl

/-- What is accepted is a value that PHP can have. -/
theorem unserialize_proper {s : Bytes} {value : Value φ}
    (ran : unserialize float s = some value) : value.proper = true := by
  obtain ⟨⟨_, rest⟩, read, rfl⟩ := Option.map_eq_some_iff.mp ran
  exact gives_value float s.length s _ rest read

end Texts

end SerializedValues
