import Anyem.PhpValues

/-!
# The configuration reader

The constructor reads a file of lines `key=value` into an array, and
`readConfig` looks a key up in it. A line is split at every `=`. The pieces
behind the second one are not glued back: the constant `i` that picks a piece
does not exist, and `+` between strings adds numbers.
-/

namespace ConfigReader

open Resource PhpValues

def cfgComment : UInt8 := 35
def cfgDelimiter : UInt8 := 61

section Source

/-- The letters that `trim` takes off. -/
def isBlank (b : UInt8) : Bool := decide (b = 32 ∨ 9 ≤ b ∧ b ≤ 11 ∨ b = 13 ∨ b = 0)

def trim (s : Bytes) : Bytes :=
  ((s.dropWhile isBlank).reverse.dropWhile isBlank).reverse

/-- `explode` with the delimiter. -/
def explode (s : Bytes) : List Bytes := s.splitOn cfgDelimiter

/-- The lines that `fgets` returns one by one, each with its line feed. -/
def lines : Bytes → List Bytes
  | [] => []
  | b :: s =>
    if b = 10 then [b] :: lines s
    else match lines s with
      | [] => [[b]]
      | line :: rest => (b :: line) :: rest

/-- What the constructor throws. PHP 8 makes an undefined constant an `Error`. -/
inductive Failure where
  | exception (message : Bytes)
  | undefinedConstant (name : Bytes)
  deriving DecidableEq

/-- What `is_file` and `fopen` find under the name of the file. -/
inductive FileState where
  | missing
  | closed
  | content (s : Bytes)

/-- The array `_config_a`. -/
abbrev Config := Bytes → Option Value

variable (php : Php)

/-- The loop over the tokens from the third on. Before PHP 8 the constant `i` is
the string of that name, at which `tokens_a` has nothing, and the sum of the
delimiter and nothing is zero. -/
def continueReading (param : Bytes) (config : Config) : List Bytes → Except Failure Config
  | [] => .ok config
  | _ :: tokens =>
    if php.eight then .error (.undefinedConstant (ascii "i"))
    else
      let sum := ((config (trim param)).getD .null).plusZero
      continueReading param (Function.update config (trim param) (some sum)) tokens

/-- The body of the loop over the lines. -/
def readLine (config : Config) (cfgLine : Bytes) : Except Failure Config :=
  if strpos (trim cfgLine) [cfgComment] = some 0 ∨ (trim cfgLine).length = 0 then .ok config
  else
    let tokens := explode cfgLine
    let param := tokens.getD 0 []
    let stored := Function.update config (trim param) (some (.string (trim (tokens.getD 1 []))))
    if tokens.length > 2 then continueReading php param stored (tokens.drop 2) else .ok stored

/-- The loop over the lines. A line `0` counts as false and ends it. -/
def readLines (config : Config) : List Bytes → Except Failure Config
  | [] => .ok config
  | cfgLine :: rest =>
    if cfgLine = ascii "0" then .ok config
    else match readLine php config cfgLine with
      | .error e => .error e
      | .ok config => readLines config rest

/-- The constructor. -/
def loadConfig (file : Bytes) : FileState → Except Failure Config
  | .missing => .error (.exception (ascii "can not find this file: " ++ file))
  | .closed => .error (.exception file)
  | .content s => readLines php (fun _ => none) (lines s)

def readConfig (config : Config) (param : Bytes) (default : Value) : Value :=
  (config param).getD default

end Source

section Written

/-- The key of a line and the text behind its first `=`, unless the line is blank
or a comment. -/
def entry (line : Bytes) : Option (Bytes × Bytes) :=
  if (trim line).head? = some cfgComment ∨ trim line = [] then none
  else some (trim (line.takeWhile (· ≠ cfgDelimiter)),
    trim (line.dropWhile (· ≠ cfgDelimiter)).tail)

/-- What a line says about a key. -/
def textOf (key line : Bytes) : Option Bytes :=
  (entry line).bind fun e => if e.1 = key then some e.2 else none

/-- The text in the last line with the key. -/
def written (key : Bytes) (lines : List Bytes) : Option Bytes :=
  (lines.filterMap (textOf key)).getLast?

/-- A file whose lines are blank, comments, or have a key and a value. -/
structure ConfigFile where
  content : Bytes
  wellFormed : ∀ line ∈ lines content, entry line = none ∨ cfgDelimiter ∈ line

/-- The texts differ by white space around `=` at most. -/
def SameText (s t : Bytes) : Prop := (explode s).map trim = (explode t).map trim

/-- `readConfig` gives the text of the last line with the key, and the default
when there is no such line. -/
def ReadsAsWritten (php : Php) (name : Bytes) (file : ConfigFile) (key : Bytes)
    (default : Value) : Prop :=
  ∃ config, loadConfig php name (.content file.content) = .ok config ∧
    match written key (lines file.content) with
    | none => readConfig config key default = default
    | some text => ∃ s, readConfig config key default = .string s ∧ SameText s text

end Written

section Trimming

variable {b : UInt8} {s : Bytes}

/-- Trimming keeps every other letter. -/
theorem mem_trim_iff (kept : isBlank b = false) : b ∈ trim s ↔ b ∈ s := by
  have dropped : ∀ t : Bytes, b ∈ t.dropWhile isBlank ↔ b ∈ t := by
    intro t
    induction t with
    | nil => rfl
    | cons a t ih =>
      rw [List.dropWhile_cons]
      split
      · rename_i blank
        have other : b ≠ a := by
          rintro rfl
          rw [kept] at blank
          cases blank
        rw [ih, List.mem_cons]
        exact ⟨Or.inr, fun h => h.resolve_left other⟩
      · rfl
  rw [trim, List.mem_reverse, dropped, List.mem_reverse, dropped]

theorem strpos_letter_iff : strpos s [b] = some 0 ↔ s.head? = some b := by
  rw [strpos]
  cases s with
  | nil => simp [Separators.cut]
  | cons a s =>
    rw [Separators.cut]
    by_cases same : b = a
    · simp [same]
    · have other : ¬ [b] <+: a :: s := by
        intro front
        exact same (List.cons_prefix_cons.mp front).1
      have other' : a ≠ b := fun h => same h.symm
      simp [other, other']

end Trimming

section OneLine

variable {php : Php} {config : Config} {line key text : Bytes}

/-- A line with a delimiter is cut at the first one. -/
theorem cut_line (has : cfgDelimiter ∈ line) :
    ∃ left right, cfgDelimiter ∉ left ∧ line = left ++ cfgDelimiter :: right ∧
      line.takeWhile (· ≠ cfgDelimiter) = left ∧
      (line.dropWhile (· ≠ cfgDelimiter)).tail = right := by
  obtain ⟨left, right, rfl, absent⟩ := List.eq_append_cons_of_mem has
  have other : ∀ b ∈ left, decide (b ≠ cfgDelimiter) = true := by
    intro b hb
    refine decide_eq_true ?_
    rintro rfl
    exact absent hb
  refine ⟨left, right, absent, rfl, ?_, ?_⟩
  · rw [List.takeWhile_append_of_pos other]
    simp
  · rw [List.dropWhile_append_of_pos other]
    simp

/-- A line of a well-formed file that says something has a delimiter. -/
theorem has_delimiter {e : Bytes × Bytes} (formed : entry line = none ∨ cfgDelimiter ∈ line)
    (found : entry line = some e) : cfgDelimiter ∈ line := by
  refine formed.resolve_left ?_
  rw [found]
  exact Option.some_ne_none e

/-- The reader passes over the lines that say nothing. -/
theorem skips_iff : (strpos (trim line) [cfgComment] = some 0 ∨ (trim line).length = 0) ↔
    (trim line).head? = some cfgComment ∨ trim line = [] := by
  rw [strpos_letter_iff, List.length_eq_zero_iff]

theorem readLine_skipped (skipped : entry line = none) :
    readLine php config line = .ok config := by
  rw [entry] at skipped
  split at skipped
  · rename_i silent
    exact if_pos (skips_iff.mpr silent)
  · cases skipped

/-- A line that counts stores its first value, and goes on when there is more. -/
theorem readLine_given (php : Php) (config : Config) (has : cfgDelimiter ∈ line) (given : entry line = some (key, text)) :
    (cfgDelimiter ∉ text ∧ readLine php config line =
      .ok (Function.update config key (some (.string text)))) ∨
    cfgDelimiter ∈ text ∧ ∃ param value token tokens, trim param = key ∧
      readLine php config line =
        continueReading php param (Function.update config key (some value)) (token :: tokens) := by
  obtain ⟨left, right, absent, rfl, before, behind⟩ := cut_line has
  rw [entry, before, behind] at given
  split at given
  · cases given
  rename_i counts
  obtain ⟨rfl, rfl⟩ := Prod.mk.inj (Option.some.inj given)
  have kept : isBlank cfgDelimiter = false := by decide
  rw [readLine, if_neg (fun skips => counts (skips_iff.mp skips)), explode,
    List.splitOn_append_cons_self_of_not_mem absent, mem_trim_iff kept]
  by_cases more : cfgDelimiter ∈ right
  · obtain ⟨middle, rest, rfl, absent'⟩ := List.eq_append_cons_of_mem more
    rw [List.splitOn_append_cons_self_of_not_mem absent']
    obtain ⟨token, tokens, pieces⟩ :=
      List.exists_cons_of_ne_nil (List.splitOn_ne_nil cfgDelimiter rest)
    rw [pieces]
    exact Or.inr ⟨more, left, _, token, tokens, rfl, if_pos (by simp)⟩
  · rw [List.splitOn_eq_singleton more]
    exact Or.inl ⟨more, if_neg (by simp)⟩

/-- Before PHP 8 the further tokens make the value a number. -/
theorem continueReading_seven (seven : php.eight = false) {param : Bytes}
    (trimmed : trim param = key) (value : Value) (token : Bytes) (tokens : List Bytes) :
    ∃ n, continueReading php param (Function.update config key (some value)) (token :: tokens) =
      .ok (Function.update config key (some (.number n))) := by
  have summed : ∃ n, value.plusZero = .number n := by
    cases value with
    | null => exact ⟨_, rfl⟩
    | number n => exact ⟨n, rfl⟩
    | string s => exact ⟨_, rfl⟩
  induction tokens generalizing value token with
  | nil =>
    obtain ⟨n, sum⟩ := summed
    refine ⟨n, ?_⟩
    rw [continueReading, if_neg (by simp [seven])]
    simp only [trimmed, Function.update_self, Function.update_idem, Option.getD_some, sum]
    rfl
  | cons next tokens ih =>
    obtain ⟨n, sum⟩ := summed
    rw [continueReading, if_neg (by simp [seven])]
    simp only [trimmed, Function.update_self, Function.update_idem, Option.getD_some, sum]
    exact ih (.number n) next ⟨n, rfl⟩

theorem continueReading_eight (eight : php.eight = true) (param token : Bytes)
    (tokens : List Bytes) : continueReading php param config (token :: tokens) =
      .error (.undefinedConstant (ascii "i")) := by
  rw [continueReading, if_pos eight]

end OneLine

section WholeFile

variable {php : Php} {config : Config} {key : Bytes}

/-- The value that a text leaves behind when the reader does not throw. -/
def Leaves (text : Bytes) (value : Value) : Prop :=
  (cfgDelimiter ∉ text ∧ value = .string text) ∨ (cfgDelimiter ∈ text ∧ ∃ n, value = .number n)

/-- From `before` to `after` the array took what was said about one key. -/
def Entered (before after : Option Value) : Option Bytes → Prop
  | none => after = before
  | some text => ∃ value, after = some value ∧ Leaves text value

/-- No line says something with a second delimiter. -/
def Single (lines : List Bytes) : Prop :=
  ∀ line ∈ lines, ∀ e, entry line = some e → cfgDelimiter ∉ e.2

theorem readLine_enters (config : Config) {line : Bytes} (formed : entry line = none ∨ cfgDelimiter ∈ line)
    (readable : php.eight = true → Single [line]) :
    ∃ after, readLine php config line = .ok after ∧
      ∀ key, Entered (config key) (after key) (textOf key line) := by
  cases found : entry line with
  | none =>
    refine ⟨config, readLine_skipped found, ?_⟩
    intro key
    rw [textOf, found]
    rfl
  | some e =>
    obtain ⟨key, text⟩ := e
    have stores : ∃ value, Leaves text value ∧
        readLine php config line = .ok (Function.update config key (some value)) := by
      rcases readLine_given php config (has_delimiter formed found) found with
        ⟨plain, read⟩ | ⟨more, glued⟩
      · exact ⟨_, Or.inl ⟨plain, rfl⟩, read⟩
      · obtain ⟨param, value, token, tokens, trimmed, read⟩ := glued
        have seven : php.eight = false := by
          by_contra eight
          exact readable (by simpa using eight) line (by simp) _ found more
        obtain ⟨n, summed⟩ := continueReading_seven seven trimmed value token tokens
        exact ⟨.number n, Or.inr ⟨more, n, rfl⟩, read.trans summed⟩
    obtain ⟨value, leaves, read⟩ := stores
    refine ⟨_, read, ?_⟩
    intro other
    rw [textOf, found]
    by_cases same : key = other
    · subst same
      rw [Option.bind_some, if_pos rfl, Function.update_self]
      exact ⟨value, rfl, leaves⟩
    · rw [Option.bind_some, if_neg same, Function.update_of_ne (fun h => same h.symm)]
      rfl

theorem Entered.append {before middle after : Option Value} {first last : Option Bytes}
    (one : Entered before middle first) (rest : Entered middle after last) :
    Entered before after (last.or first) := by
  cases last with
  | none =>
    cases rest
    exact one
  | some text => exact rest

theorem written_cons (key line : Bytes) (rest : List Bytes) :
    written key (line :: rest) = (written key rest).or (textOf key line) := by
  rw [written, written, List.filterMap_cons]
  cases textOf key line with
  | none => simp
  | some text =>
    rw [List.getLast?_cons]
    cases (rest.filterMap (textOf key)).getLast? with
    | none => rfl
    | some last => rfl

/-- A line of a well-formed file does not end the loop. -/
theorem formed_ne_zero {line : Bytes} (formed : entry line = none ∨ cfgDelimiter ∈ line) :
    line ≠ ascii "0" := by
  rintro rfl
  revert formed
  decide

/-- What the array holds after the lines were read. -/
theorem readLines_enters (config : Config) {lines : List Bytes}
    (formed : ∀ line ∈ lines, entry line = none ∨ cfgDelimiter ∈ line)
    (readable : php.eight = true → Single lines) :
    ∃ after, readLines php config lines = .ok after ∧
      ∀ key, Entered (config key) (after key) (written key lines) := by
  induction lines generalizing config with
  | nil => exact ⟨config, rfl, fun key => rfl⟩
  | cons line rest ih =>
    have formed' := formed line (by simp)
    obtain ⟨middle, read, one⟩ := readLine_enters config formed'
      fun eight l hl => readable eight l (by simpa using Or.inl (List.mem_singleton.mp hl))
    obtain ⟨after, read', more⟩ := ih middle
      (fun l hl => formed l (List.mem_cons_of_mem _ hl))
      (fun eight l hl => readable eight l (List.mem_cons_of_mem _ hl))
    refine ⟨after, ?_, ?_⟩
    · rw [readLines, if_neg (formed_ne_zero formed'), read]
      exact read'
    · intro key
      rw [written_cons]
      exact (one key).append (more key)

/-- Under PHP 8 a second delimiter anywhere in the file throws. -/
theorem single_of_loaded {lines : List Bytes} (eight : php.eight = true)
    (formed : ∀ line ∈ lines, entry line = none ∨ cfgDelimiter ∈ line) {after : Config}
    (loaded : readLines php config lines = .ok after) : Single lines := by
  induction lines generalizing config with
  | nil => simp [Single]
  | cons line rest ih =>
    have formed' := formed line (by simp)
    rw [readLines, if_neg (formed_ne_zero formed')] at loaded
    have first : ∀ e, entry line = some e → cfgDelimiter ∉ e.2 := by
      intro e found more
      rcases readLine_given php config (has_delimiter formed' found) found with
        ⟨plain, -⟩ | ⟨-, glued⟩
      · exact plain more
      · obtain ⟨param, value, token, tokens, -, read⟩ := glued
        rw [read, continueReading_eight eight] at loaded
        cases loaded
    cases read : readLine php config line with
    | error e =>
      rw [read] at loaded
      cases loaded
    | ok middle =>
      rw [read] at loaded
      have others := ih (fun l hl => formed l (List.mem_cons_of_mem _ hl)) loaded
      intro l hl e found
      rcases List.mem_cons.mp hl with rfl | hl
      · exact first e found
      · exact others l hl e found

/-- The reader gives what is written exactly when the last line with the key has
one delimiter, and under PHP 8 all other lines with a key as well. -/
theorem readsAsWritten_iff (php : Php) (name : Bytes) (file : ConfigFile) (key : Bytes)
    (default : Value) : ReadsAsWritten php name file key default ↔
      (php.eight = true → Single (lines file.content)) ∧
        ∀ text, written key (lines file.content) = some text → cfgDelimiter ∉ text := by
  constructor
  · rintro ⟨config, loaded, reads⟩
    have readable : php.eight = true → Single (lines file.content) :=
      fun eight => single_of_loaded eight file.wellFormed loaded
    refine ⟨readable, ?_⟩
    intro text found more
    obtain ⟨after, loaded', entered⟩ :=
      readLines_enters (fun _ => none) file.wellFormed readable
    have same : after = config := Except.ok.inj (loaded'.symm.trans loaded)
    subst same
    have kept := entered key
    rw [found] at kept reads
    obtain ⟨value, kept, leaves⟩ := kept
    obtain ⟨s, read, -⟩ := reads
    rw [readConfig, kept, Option.getD_some] at read
    rcases leaves with ⟨plain, -⟩ | ⟨-, n, number⟩
    · exact plain more
    · rw [number] at read
      cases read
  · rintro ⟨readable, plain⟩
    obtain ⟨after, loaded, entered⟩ :=
      readLines_enters (fun _ => none) file.wellFormed readable
    refine ⟨after, loaded, ?_⟩
    have kept := entered key
    cases found : written key (lines file.content) with
    | none =>
      rw [found] at kept
      change readConfig after key default = default
      rw [readConfig, kept]
      rfl
    | some text =>
      rw [found] at kept
      obtain ⟨value, kept, leaves⟩ := kept
      rcases leaves with ⟨-, string⟩ | ⟨more, -⟩
      · refine ⟨text, ?_, rfl⟩
        rw [readConfig, kept, string]
        rfl
      · exact False.elim (plain text found more)

/-- A line `k=a=b` is lost under every version: PHP 8 throws at it, and the
versions before it make its value zero. -/
theorem second_delimiter_lost :
    ¬ ∃ php : Php, ∀ (name : Bytes) (file : ConfigFile) (key : Bytes) (default : Value),
      ReadsAsWritten php name file key default := by
  rintro ⟨⟨eight, emptyIsZero, showFloat⟩, reads⟩
  obtain ⟨config, loaded, s, read, -⟩ :=
    reads [] ⟨ascii "k=a=b", by decide⟩ (ascii "k") .null
  cases eight with
  | true => cases loaded
  | false =>
    cases loaded
    cases read

end WholeFile

end ConfigReader
