/-
  Settings read from named variables.

  Three variables are asked for, one after the other.  One that is not set leaves its setting as it
  is.  White space around a value does not count.  A number is decimal digits, after at most one
  plus sign, of value below 2^64; a switch is one of eight words, in any mixture of letter cases.
  The first value that is neither ends the reading, and the variables after it are not asked for.
-/
import NameCache.Settings.Basic

namespace NameCache

namespace Settings

/-- The variables that are asked for. -/
inductive Variable where
  | buckets
  | shared
  | enabled
  deriving DecidableEq, Repr

/-- The name of a variable. -/
def Variable.name : Variable → String
  | .buckets => "OXCRYPT_DIRCACHE_BUCKETS"
  | .shared => "OXCRYPT_DIRCACHE_GLOBAL"
  | .enabled => "OXCRYPT_DIRCACHE_ENABLE"

/-- The variables in the order of asking. -/
def Variable.all : List Variable := [.buckets, .shared, .enabled]

/-- A value that cannot be read; `raw` is the value as it was set. -/
inductive Misreading where
  | notNumber (asked : Variable) (raw : String)
  | notSwitch (asked : Variable) (raw : String)
  deriving DecidableEq, Repr

/-- The text of a misreading. -/
def Misreading.message : Misreading → String
  | .notNumber v raw =>
    "invalid value for " ++ v.name ++ ": " ++ Text.Quoted.quote raw.toList ++
      " is not an unsigned integer"
  | .notSwitch v raw =>
    "invalid value for " ++ v.name ++ ": " ++ Text.Quoted.quote raw.toList ++
      " is not a boolean (expected 0/1, true/false, yes/no, on/off)"

/-! ## Values -/

/-- A text without the white space around it. -/
def trim (text : List Char) : List Char :=
  ((text.dropWhile Text.isBlank).reverse.dropWhile Text.isBlank).reverse

/-- The value of decimal digits. -/
def digitValue (digits : List Char) : Nat :=
  digits.foldl (fun n c => n * 10 + (c.toNat - '0'.toNat)) 0

/-- A text without a plus sign in front. -/
def dropPlus : List Char → List Char
  | '+' :: rest => rest
  | text => text

/-- A number in decimal digits. -/
def readNumber (text : List Char) : Option UInt64 :=
  let digits := dropPlus (trim text)
  if digits ≠ [] ∧ digits.all Char.isDigit ∧ digitValue digits < UInt64.size then
    some (UInt64.ofNat (digitValue digits))
  else none

/-- The words for on. -/
def onWords : List String := ["1", "true", "yes", "on"]

/-- The words for off. -/
def offWords : List String := ["0", "false", "no", "off"]

/-- A switch in words.  Only the letters A to Z have another case here. -/
def readSwitch (text : List Char) : Option Bool :=
  let word := String.ofList ((trim text).map Char.toLower)
  if word ∈ onWords then some true
  else if word ∈ offWords then some false
  else none

/-! ## Reading all -/

/-- The settings with the value of one variable. -/
def apply (s : Settings) (v : Variable) (raw : String) : Except Misreading Settings :=
  match v with
  | .buckets =>
    match readNumber raw.toList with
    | some n => .ok { s with buckets := n }
    | none => .error (.notNumber v raw)
  | .shared =>
    match readSwitch raw.toList with
    | some b => .ok { s with shared := b }
    | none => .error (.notSwitch v raw)
  | .enabled =>
    match readSwitch raw.toList with
    | some b => .ok { s with enabled := b }
    | none => .error (.notSwitch v raw)

/-- Ask for variables in turn: the names asked for, and the settings or what could not be read. -/
def readVariables (lookup : String → Option String) :
    List Variable → Settings → List String × Except Misreading Settings
  | [], s => ([], .ok s)
  | v :: rest, s =>
    let applied : Except Misreading Settings := match lookup v.name with
      | none => .ok s
      | some raw => s.apply v raw
    match applied with
    | .error m => ([v.name], .error m)
    | .ok s =>
      let (asked, result) := readVariables lookup rest s
      (v.name :: asked, result)

/-- The default settings with what a lookup has: the names asked for, and the result. -/
def fromLookup (lookup : String → Option String) : List String × Except Misreading Settings :=
  readVariables lookup Variable.all {}

/-- The default settings with what an environment of byte strings has.  A value that is not UTF-8
    is taken for one that is not set. -/
def fromEnvironment (env : String → Option Bytes) : Except Misreading Settings :=
  (fromLookup fun name => ((env name).bind Text.Utf8.strict?).map String.ofList).2

/-! ## Signs, blanks and letter case -/

example : readNumber " +007\t".toList = some 7 := by decide
example : readNumber "++1".toList = none := by decide
example : readNumber "18446744073709551616".toList = none := by decide
example : readSwitch " Yes\n".toList = some true := by decide

end Settings

end NameCache
