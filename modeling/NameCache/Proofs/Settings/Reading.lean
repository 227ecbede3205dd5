/-
  Settings are read as a grammar says, and reading ends at the first value outside of it.

  The grammar says what values mean and nothing about how they are taken apart: white space around
  a core, and the core a numeral with at most one plus sign in front (`Number`), or a word up to
  the case of the letters A to Z (`Switch`).

  1. **Trimming** finds the core, because no core begins or ends with white space (`trim_padded`).
  2. **Values.**  Reading a number or a switch is the grammar (`readNumber_iff`, `readSwitch_iff`).
     A numeral grows at its end, so the induction is on the digits from the last one backwards.
  3. **Variables** (`readVariables_cases`).  Either every value that is set is in the grammar, and
     all variables are asked for, or there is a first one that is not, and it is the last one asked
     for.
-/
import NameCache.Settings.Reading

namespace NameCache

namespace Settings

/-! ## The grammar -/

/-- The code points with the property White_Space. -/
def whiteSpace : List Nat :=
  [0x09, 0x0A, 0x0B, 0x0C, 0x0D, 0x20, 0x85, 0xA0, 0x1680, 0x2000, 0x2001, 0x2002, 0x2003, 0x2004,
    0x2005, 0x2006, 0x2007, 0x2008, 0x2009, 0x200A, 0x2028, 0x2029, 0x202F, 0x205F, 0x3000]

/-- Some text with white space around it, or none. -/
def Padded (core text : List Char) : Prop :=
  ∃ before after, (∀ c ∈ before, c.toNat ∈ whiteSpace) ∧ (∀ c ∈ after, c.toNat ∈ whiteSpace) ∧
    text = before ++ core ++ after

/-- One of the ten digits, and its value. -/
def Digit (c : Char) (k : Nat) : Prop := k ≤ 9 ∧ c.toNat = '0'.toNat + k

/-- One or more digits, and their value. -/
inductive Numeral : List Char → Nat → Prop
  | digit {c : Char} {k : Nat} (last : Digit c k) : Numeral [c] k
  | snoc {front : List Char} {c : Char} {n k : Nat} (numeral : Numeral front n) (last : Digit c k) :
    Numeral (front ++ [c]) (10 * n + k)

/-- A number in a text, and its value. -/
def Number (text : List Char) (n : Nat) : Prop :=
  n < 18446744073709551616 ∧
    ∃ core, Padded core text ∧ (Numeral core n ∨ ∃ digits, core = '+' :: digits ∧ Numeral digits n)

/-- A character for a character of a word: the same, or the capital letter for a small one. -/
def Folds (c d : Char) : Prop :=
  c = d ∨ ∃ k, k < 26 ∧ c.toNat = 'A'.toNat + k ∧ d.toNat = 'a'.toNat + k

/-- A word in any mixture of cases. -/
inductive Spells : List Char → List Char → Prop
  | nil : Spells [] []
  | cons {c d : Char} {cs ds : List Char} (first : Folds c d) (rest : Spells cs ds) :
    Spells (c :: cs) (d :: ds)

/-- The words for a position of a switch. -/
def words : Bool → List String
  | true => ["1", "true", "yes", "on"]
  | false => ["0", "false", "no", "off"]

/-- A switch in a text, and its position. -/
def Switch (text : List Char) (position : Bool) : Prop :=
  ∃ core, Padded core text ∧ ∃ word ∈ words position, Spells core word.toList

/-- The values that a variable can have. -/
def Variable.Takes : Variable → String → Prop
  | .buckets, raw => ∃ n, Number raw.toList n
  | .shared, raw => ∃ position, Switch raw.toList position
  | .enabled, raw => ∃ position, Switch raw.toList position

/-- What is said of a value that a variable cannot have. -/
def Variable.misreading : Variable → String → Misreading
  | .buckets, raw => .notNumber .buckets raw
  | .shared, raw => .notSwitch .shared raw
  | .enabled, raw => .notSwitch .enabled raw

/-- The settings are what the variables say, and what they do not say is as by default. -/
structure Carries (lookup : String → Option String) (s : Settings) : Prop where
  buckets : ∀ raw, lookup Variable.buckets.name = some raw → Number raw.toList s.buckets.toNat
  shared : ∀ raw, lookup Variable.shared.name = some raw → Switch raw.toList s.shared
  enabled : ∀ raw, lookup Variable.enabled.name = some raw → Switch raw.toList s.enabled
  no_buckets : lookup Variable.buckets.name = none → s.buckets = 0
  no_shared : lookup Variable.shared.name = none → s.shared = true
  no_enabled : lookup Variable.enabled.name = none → s.enabled = true
  minBuckets : s.minBuckets = 64
  vnodes : s.vnodes = 262144
  locks : s.locks = none

/-! ## Trimming -/

theorem isBlank_iff (c : Char) : Text.isBlank c = true ↔ c.toNat ∈ whiteSpace := by
  simp only [Text.isBlank, Text.blankRanges, Text.Ranges.covers, whiteSpace, List.mem_cons,
    List.not_mem_nil, Bool.and_eq_true, Bool.or_eq_true, decide_eq_true_eq, Bool.false_eq_true,
    or_false]
  omega

/-- Characters that are not blank stay when blanks in front are dropped. -/
theorem dropWhile_blank_solid {core : List Char} (solid : ∀ c ∈ core, ¬ Text.isBlank c = true) :
    core.dropWhile Text.isBlank = core := by
  cases core with
  | nil => rfl
  | cons c rest => exact List.dropWhile_cons_of_neg (solid c List.mem_cons_self)

/-- A core without blanks is what is left of it and the blanks around it. -/
theorem trim_padded {core text : List Char} (solid : ∀ c ∈ core, ¬ Text.isBlank c = true)
    (padded : Padded core text) : trim text = core := by
  obtain ⟨before, after, hb, ha, rfl⟩ := padded
  have hb : ∀ c ∈ before, Text.isBlank c = true := fun c hc => (isBlank_iff c).mpr (hb c hc)
  have ha : ∀ c ∈ after, Text.isBlank c = true := fun c hc => (isBlank_iff c).mpr (ha c hc)
  have ha' : ∀ c ∈ after.reverse, Text.isBlank c = true := fun c hc => ha c (List.mem_reverse.mp hc)
  have solid' : ∀ c ∈ core.reverse, ¬ Text.isBlank c = true :=
    fun c hc => solid c (List.mem_reverse.mp hc)
  rw [trim, List.append_assoc, List.dropWhile_append_of_pos hb]
  cases core with
  | nil =>
    have gone : after.dropWhile Text.isBlank = [] := by
      have all : (after ++ []).dropWhile Text.isBlank = [] := List.dropWhile_append_of_pos ha
      rwa [List.append_nil] at all
    rw [List.nil_append, gone]
    rfl
  | cons c rest =>
    have first : ¬ Text.isBlank c = true := solid c List.mem_cons_self
    rw [List.cons_append, List.dropWhile_cons_of_neg first, ← List.cons_append,
      List.reverse_append, List.dropWhile_append_of_pos ha', dropWhile_blank_solid solid',
      List.reverse_reverse]

/-- What is left of a text has blanks around it. -/
theorem padded_trim (text : List Char) : Padded (trim text) text := by
  have blank : ∀ l : List Char, ∀ c ∈ l.takeWhile Text.isBlank, c.toNat ∈ whiteSpace :=
    fun l c hc => (isBlank_iff c).mp (List.all_eq_true.mp List.all_takeWhile c hc)
  let rest := text.dropWhile Text.isBlank
  refine ⟨text.takeWhile Text.isBlank, (rest.reverse.takeWhile Text.isBlank).reverse, blank text,
    fun c hc => blank rest.reverse c (List.mem_reverse.mp hc), ?_⟩
  have split : rest = trim text ++ (rest.reverse.takeWhile Text.isBlank).reverse := by
    rw [trim, ← List.reverse_append, List.takeWhile_append_dropWhile, List.reverse_reverse]
  rw [List.append_assoc, ← split, List.takeWhile_append_dropWhile]

/-! ## Numbers -/

theorem digit_iff {c : Char} {k : Nat} :
    Digit c k ↔ c.isDigit = true ∧ c.toNat - '0'.toNat = k := by
  rw [Char.isDigit_iff_toNat, Digit]
  show k ≤ 9 ∧ c.toNat = 48 + k ↔ (48 ≤ c.toNat ∧ c.toNat ≤ 57) ∧ c.toNat - 48 = k
  omega

theorem digitValue_snoc (front : List Char) (c : Char) :
    digitValue (front ++ [c]) = digitValue front * 10 + (c.toNat - '0'.toNat) :=
  List.foldl_append

/-- A list of digits is a numeral for its value. -/
theorem numeral_of_digits : (backwards : List Char) → backwards ≠ [] →
    (∀ c ∈ backwards, c.isDigit = true) →
    Numeral backwards.reverse (digitValue backwards.reverse)
  | [c], _, digits => by
    have last := digit_iff.mpr ⟨digits c List.mem_cons_self, rfl⟩
    have value : digitValue [c] = c.toNat - '0'.toNat := Nat.zero_add _
    show Numeral [c] (digitValue [c])
    rw [value]
    exact .digit last
  | c :: d :: rest, _, digits => by
    have last := digit_iff.mpr ⟨digits c List.mem_cons_self, rfl⟩
    have front := numeral_of_digits (d :: rest) (List.cons_ne_nil _ _)
      fun x hx => digits x (List.mem_cons_of_mem _ hx)
    rw [List.reverse_cons, digitValue_snoc, Nat.mul_comm]
    exact .snoc front last

theorem numeral_iff {digits : List Char} {n : Nat} :
    Numeral digits n ↔ digits ≠ [] ∧ digits.all Char.isDigit = true ∧ digitValue digits = n := by
  constructor
  · intro numeral
    induction numeral with
    | @digit c k last =>
      obtain ⟨is_digit, value⟩ := digit_iff.mp last
      refine ⟨List.cons_ne_nil _ _, ?_, (Nat.zero_add _).trans value⟩
      rw [List.all_cons, is_digit]
      rfl
    | @snoc front c n k _ last ih =>
      obtain ⟨-, all, value⟩ := ih
      obtain ⟨is_digit, last_value⟩ := digit_iff.mp last
      refine ⟨fun none => ?_, ?_, ?_⟩
      · exact List.cons_ne_nil c [] (List.append_eq_nil_iff.mp none).2
      · rw [List.all_append, all, List.all_cons, is_digit]
        rfl
      · rw [digitValue_snoc, value, last_value, Nat.mul_comm]
  · rintro ⟨some, all, rfl⟩
    have numeral := numeral_of_digits digits.reverse
      (fun none => some (List.reverse_eq_nil_iff.mp none))
      fun c hc => List.all_eq_true.mp all c (List.mem_reverse.mp hc)
    rwa [List.reverse_reverse] at numeral

/-- Digits and the plus sign are not blank. -/
theorem solid_of_numeral {core digits : List Char} {n : Nat} (numeral : Numeral digits n)
    (signed : core = digits ∨ core = '+' :: digits) : ∀ c ∈ core, ¬ Text.isBlank c = true := by
  have solid : ∀ c ∈ digits, ¬ Text.isBlank c = true := by
    intro c hc
    have is_digit := List.all_eq_true.mp (numeral_iff.mp numeral).2.1 c hc
    have range : 48 ≤ c.toNat ∧ c.toNat ≤ 57 := Char.isDigit_iff_toNat.mp is_digit
    rw [isBlank_iff]
    simp only [whiteSpace, List.mem_cons, List.not_mem_nil, or_false]
    omega
  intro c hc
  rcases signed with rfl | rfl
  · exact solid c hc
  · rcases List.mem_cons.mp hc with rfl | hc
    · decide
    · exact solid c hc

theorem dropPlus_of_numeral {digits : List Char} {n : Nat} (numeral : Numeral digits n) :
    dropPlus digits = digits := by
  obtain ⟨some, all, -⟩ := numeral_iff.mp numeral
  unfold dropPlus
  split
  · exact absurd all (by simp)
  · rfl

/-- Reading a number is the grammar. -/
theorem readNumber_iff {text : List Char} {u : UInt64} :
    readNumber text = some u ↔ Number text u.toNat := by
  rw [readNumber]
  constructor
  · intro read
    split at read
    case isFalse => exact absurd read (by simp)
    case isTrue fit =>
      obtain rfl := Option.some.inj read
      obtain ⟨some, all, small⟩ := fit
      rw [UInt64.toNat_ofNat_of_lt' small]
      have numeral := numeral_iff.mpr ⟨some, all, rfl⟩
      refine ⟨small, trim text, padded_trim text, ?_⟩
      unfold dropPlus at numeral ⊢
      split at numeral
      case h_1 digits signed => exact .inr ⟨digits, signed, numeral⟩
      case h_2 => exact .inl numeral
  · rintro ⟨small, core, padded, form⟩
    -- either way the digits are what is left when the blanks and the sign are dropped
    have found : ∃ digits, dropPlus (trim text) = digits ∧ Numeral digits u.toNat := by
      rcases form with numeral | ⟨digits, rfl, numeral⟩
      · rw [trim_padded (solid_of_numeral numeral (.inl rfl)) padded]
        exact ⟨core, dropPlus_of_numeral numeral, numeral⟩
      · rw [trim_padded (solid_of_numeral numeral (.inr rfl)) padded]
        exact ⟨digits, rfl, numeral⟩
    obtain ⟨digits, same, numeral⟩ := found
    obtain ⟨some, all, value⟩ := numeral_iff.mp numeral
    have fit : digits ≠ [] ∧ digits.all Char.isDigit = true ∧ digitValue digits < UInt64.size :=
      ⟨some, all, value ▸ small⟩
    rw [same, if_pos fit, value, UInt64.ofNat_toNat]

/-! ## Switches -/

theorem toNat_toLower (c : Char) :
    c.toLower.toNat = if 65 ≤ c.toNat ∧ c.toNat ≤ 90 then c.toNat + 32 else c.toNat := by
  have bounds : (c.val ≥ 'A'.val ∧ c.val ≤ 'Z'.val) ↔ 65 ≤ c.toNat ∧ c.toNat ≤ 90 := by
    rw [ge_iff_le, UInt32.le_iff_toNat_le, UInt32.le_iff_toNat_le]
    rfl
  unfold Char.toLower
  split
  case isTrue capital =>
    rw [if_pos (bounds.mp capital)]
    show (c.val + ('a'.val - 'A'.val)).toNat = _
    rw [UInt32.toNat_add]
    show (c.toNat + 32) % 4294967296 = c.toNat + 32
    have := (bounds.mp capital).2
    omega
  case isFalse other => rw [if_neg (mt bounds.mpr other)]

/-- Against a character that is no capital letter, lowering the case is the grammar. -/
theorem folds_iff {c d : Char} (small : d.toLower = d) : Folds c d ↔ c.toLower = d := by
  have d_small := toNat_toLower d
  rw [small] at d_small
  have lowered := toNat_toLower c
  constructor
  · rintro (rfl | ⟨k, hk, hc, hd⟩)
    · exact small
    · apply Char.toNat_inj.mp
      replace hc : c.toNat = 65 + k := hc
      replace hd : d.toNat = 97 + k := hd
      rw [if_pos (by omega)] at lowered
      omega
  · rintro rfl
    by_cases capital : 65 ≤ c.toNat ∧ c.toNat ≤ 90
    · rw [if_pos capital] at lowered
      refine .inr ⟨c.toNat - 65, by omega, ?_, ?_⟩
      · show c.toNat = 65 + (c.toNat - 65)
        omega
      · show c.toLower.toNat = 97 + (c.toNat - 65)
        omega
    · rw [if_neg capital] at lowered
      exact .inl (Char.toNat_inj.mp lowered.symm)

theorem spells_iff {core word : List Char} (small : ∀ d ∈ word, d.toLower = d) :
    Spells core word ↔ core.map Char.toLower = word := by
  induction word generalizing core with
  | nil =>
    rw [List.map_eq_nil_iff]
    constructor
    · rintro ⟨⟩
      rfl
    · rintro rfl
      exact .nil
  | cons d ds ih =>
    have rest := fun cs => @ih cs fun x hx => small x (List.mem_cons_of_mem _ hx)
    have first := fun c => @folds_iff c d (small d List.mem_cons_self)
    constructor
    · rintro (_ | ⟨hc, hcs⟩)
      rw [List.map_cons, (first _).mp hc, (rest _).mp hcs]
    · intro lowered
      obtain ⟨c, cs, rfl, hc, hcs⟩ := List.map_eq_cons_iff.mp lowered
      exact .cons ((first c).mpr hc) ((rest cs).mpr hcs)

/-- What spells a word without blanks has none. -/
theorem solid_of_spells {core word : List Char} (spells : Spells core word)
    (solid : ∀ d ∈ word, ¬ Text.isBlank d = true) : ∀ c ∈ core, ¬ Text.isBlank c = true := by
  induction spells with
  | nil => exact fun c hc => absurd hc List.not_mem_nil
  | @cons c d cs ds first _ ih =>
    intro x hx
    rcases List.mem_cons.mp hx with rfl | hx
    · rcases first with rfl | ⟨k, hk, capital, -⟩
      · exact solid x List.mem_cons_self
      · replace capital : x.toNat = 65 + k := capital
        rw [isBlank_iff]
        simp only [whiteSpace, List.mem_cons, List.not_mem_nil, or_false]
        omega
    · exact ih (fun d hd => solid d (List.mem_cons_of_mem _ hd)) x hx

/-- The words are in small letters and have no blanks. -/
theorem words_plain (position : Bool) : ∀ word ∈ words position,
    ∀ d ∈ word.toList, d.toLower = d ∧ ¬ Text.isBlank d = true := by
  have plain : ∀ word ∈ words position,
      word.toList.all (fun d => d.toLower = d ∧ ¬ Text.isBlank d = true) = true := by
    cases position with
    | true => decide +kernel
    | false => decide +kernel
  exact fun word among d hd => of_decide_eq_true (List.all_eq_true.mp (plain word among) d hd)

/-- No word stands for both positions. -/
theorem words_apart : ∀ word ∈ words true, word ∉ words false := by
  decide +kernel

theorem switch_iff {text : List Char} {position : Bool} :
    Switch text position ↔ String.ofList ((trim text).map Char.toLower) ∈ words position := by
  constructor
  · rintro ⟨core, padded, word, among, spells⟩
    have plain := words_plain position word among
    rw [trim_padded (solid_of_spells spells fun d hd => (plain d hd).2) padded,
      (spells_iff fun d hd => (plain d hd).1).mp spells, String.ofList_toList]
    exact among
  · intro among
    have plain := words_plain position _ among
    refine ⟨trim text, padded_trim text, _, among, (spells_iff fun d hd => (plain d hd).1).mpr ?_⟩
    rw [String.toList_ofList]

/-- Reading a switch is the grammar. -/
theorem readSwitch_iff {text : List Char} {position : Bool} :
    readSwitch text = some position ↔ Switch text position := by
  rw [switch_iff, readSwitch]
  generalize String.ofList ((trim text).map Char.toLower) = word
  show (if word ∈ words true then some true
    else if word ∈ words false then some false else none) = some position ↔ _
  by_cases on : word ∈ words true
  · rw [if_pos on]
    cases position with
    | true => exact iff_of_true rfl on
    | false => exact iff_of_false (by simp) (words_apart word on)
  · rw [if_neg on]
    by_cases off : word ∈ words false
    · rw [if_pos off]
      cases position with
      | true => exact iff_of_false (by simp) on
      | false => exact iff_of_true rfl off
    · rw [if_neg off]
      cases position with
      | true => exact iff_of_false (by simp) on
      | false => exact iff_of_false (by simp) off

/-! ## Variables -/

/-- The settings with a value that a variable takes. -/
def assign (s : Settings) (raw : String) : Variable → Settings
  | .buckets => { s with buckets := (readNumber raw.toList).getD s.buckets }
  | .shared => { s with shared := (readSwitch raw.toList).getD s.shared }
  | .enabled => { s with enabled := (readSwitch raw.toList).getD s.enabled }

/-- The settings with what a lookup has for a variable. -/
def overlay (lookup : String → Option String) (s : Settings) : Variable → Settings
  | .buckets =>
    { s with buckets := ((lookup Variable.buckets.name).bind (readNumber ·.toList)).getD s.buckets }
  | .shared =>
    { s with shared := ((lookup Variable.shared.name).bind (readSwitch ·.toList)).getD s.shared }
  | .enabled =>
    { s with enabled := ((lookup Variable.enabled.name).bind (readSwitch ·.toList)).getD s.enabled }

theorem overlay_of_none {lookup : String → Option String} {v : Variable} (s : Settings)
    (unset : lookup v.name = none) : overlay lookup s v = s := by
  cases v with
  | buckets => rw [overlay, unset]; rfl
  | shared => rw [overlay, unset]; rfl
  | enabled => rw [overlay, unset]; rfl

theorem overlay_of_some {lookup : String → Option String} {v : Variable} {raw : String}
    (s : Settings) (set : lookup v.name = some raw) : overlay lookup s v = s.assign raw v := by
  cases v with
  | buckets => rw [overlay, set]; rfl
  | shared => rw [overlay, set]; rfl
  | enabled => rw [overlay, set]; rfl

theorem takes_number_iff {text : List Char} : (∃ n, Number text n) ↔ (readNumber text).isSome := by
  constructor
  · rintro ⟨n, number⟩
    have same : (UInt64.ofNat n).toNat = n := UInt64.toNat_ofNat_of_lt' number.1
    rw [readNumber_iff.mpr (same.symm ▸ number)]
    rfl
  · intro read
    obtain ⟨u, read⟩ := Option.isSome_iff_exists.mp read
    exact ⟨u.toNat, readNumber_iff.mp read⟩

theorem takes_switch_iff {text : List Char} :
    (∃ position, Switch text position) ↔ (readSwitch text).isSome := by
  rw [Option.isSome_iff_exists]
  exact exists_congr fun _ => readSwitch_iff.symm

/-- A value is taken, or it is misread. -/
theorem apply_cases (s : Settings) (v : Variable) (raw : String) :
    (v.Takes raw ∧ s.apply v raw = .ok (s.assign raw v)) ∨
      (¬ v.Takes raw ∧ s.apply v raw = .error (v.misreading raw)) := by
  cases v with
  | buckets =>
    rw [Variable.Takes, takes_number_iff, apply, assign]
    cases readNumber raw.toList with
    | none => exact .inr ⟨Bool.false_ne_true, rfl⟩
    | some u => exact .inl ⟨rfl, rfl⟩
  | shared =>
    rw [Variable.Takes, takes_switch_iff, apply, assign]
    cases readSwitch raw.toList with
    | none => exact .inr ⟨Bool.false_ne_true, rfl⟩
    | some u => exact .inl ⟨rfl, rfl⟩
  | enabled =>
    rw [Variable.Takes, takes_switch_iff, apply, assign]
    cases readSwitch raw.toList with
    | none => exact .inr ⟨Bool.false_ne_true, rfl⟩
    | some u => exact .inl ⟨rfl, rfl⟩

section Reading

variable {lookup other : String → Option String} {v : Variable} {rest : List Variable}
  {s s' : Settings} {raw : String}

theorem readVariables_unset (unset : lookup v.name = none) :
    readVariables lookup (v :: rest) s =
      (v.name :: (readVariables lookup rest s).1, (readVariables lookup rest s).2) := by
  rw [readVariables, unset]

theorem readVariables_set (set : lookup v.name = some raw) (applied : s.apply v raw = .ok s') :
    readVariables lookup (v :: rest) s =
      (v.name :: (readVariables lookup rest s').1, (readVariables lookup rest s').2) := by
  rw [readVariables, set]
  dsimp only
  rw [applied]

theorem readVariables_misread {m : Misreading} (set : lookup v.name = some raw)
    (applied : s.apply v raw = .error m) :
    readVariables lookup (v :: rest) s = ([v.name], .error m) := by
  rw [readVariables, set]
  dsimp only
  rw [applied]

/-- Reading depends on the variables that are asked for and on no others. -/
theorem readVariables_congr (vars : List Variable) (s : Settings)
    (same : ∀ name ∈ (readVariables lookup vars s).1, other name = lookup name) :
    readVariables other vars s = readVariables lookup vars s := by
  induction vars generalizing s with
  | nil => rfl
  | cons v rest ih =>
    cases set : lookup v.name with
    | none =>
      rw [readVariables_unset set] at same ⊢
      have here : other v.name = none := (same v.name List.mem_cons_self).trans set
      rw [readVariables_unset here, ih s fun name hn => same name (List.mem_cons_of_mem _ hn)]
    | some raw =>
      cases applied : s.apply v raw with
      | ok s' =>
        rw [readVariables_set set applied] at same ⊢
        have here : other v.name = some raw := (same v.name List.mem_cons_self).trans set
        rw [readVariables_set here applied,
          ih s' fun name hn => same name (List.mem_cons_of_mem _ hn)]
      | error m =>
        rw [readVariables_misread set applied] at same ⊢
        have here : other v.name = some raw := (same v.name List.mem_cons_self).trans set
        rw [readVariables_misread here applied]

/-- All values that are set for these variables are in the grammar. -/
def AllTaken (lookup : String → Option String) (vars : List Variable) : Prop :=
  ∀ v ∈ vars, ∀ raw, lookup v.name = some raw → v.Takes raw

/-- Where the value of the first variable is taken or not set, reading goes on to the rest. -/
theorem readVariables_onward (taken : ∀ raw, lookup v.name = some raw → v.Takes raw) :
    readVariables lookup (v :: rest) s =
      (v.name :: (readVariables lookup rest (overlay lookup s v)).1,
        (readVariables lookup rest (overlay lookup s v)).2) := by
  cases set : lookup v.name with
  | none => rw [readVariables_unset set, overlay_of_none s set]
  | some raw =>
    rcases apply_cases s v raw with ⟨-, applied⟩ | ⟨bad, -⟩
    · rw [readVariables_set set applied, overlay_of_some s set]
    · exact absurd (taken raw set) bad

/-- Either all values are taken and all variables were asked for, or the first one that is not was
    asked for last. -/
theorem readVariables_cases (lookup : String → Option String) (vars : List Variable)
    (s : Settings) :
    (AllTaken lookup vars ∧
      readVariables lookup vars s = (vars.map (·.name), .ok (vars.foldl (overlay lookup) s))) ∨
    ∃ before v after raw, vars = before ++ v :: after ∧ AllTaken lookup before ∧
      lookup v.name = some raw ∧ ¬ v.Takes raw ∧
      readVariables lookup vars s =
        ((before ++ [v]).map (·.name), .error (v.misreading raw)) := by
  induction vars generalizing s with
  | nil => exact .inl ⟨fun v hv => absurd hv List.not_mem_nil, rfl⟩
  | cons v rest ih =>
    by_cases taken : ∀ raw, lookup v.name = some raw → v.Takes raw
    · have all : ∀ vars, AllTaken lookup vars → AllTaken lookup (v :: vars) := by
        intro vars others u hu
        rcases List.mem_cons.mp hu with rfl | hu
        · exact taken
        · exact others u hu
      rcases ih (overlay lookup s v) with
        ⟨others, read⟩ | ⟨before, u, after, raw, rfl, others, set, bad, read⟩
      · refine .inl ⟨all rest others, ?_⟩
        rw [readVariables_onward taken, read]
        rfl
      · refine .inr ⟨v :: before, u, after, raw, rfl, all before others, set, bad, ?_⟩
        rw [readVariables_onward taken, read]
        rfl
    · obtain ⟨raw, not_taken⟩ := Classical.not_forall.mp taken
      obtain ⟨set, bad⟩ := Classical.not_imp.mp not_taken
      refine .inr ⟨[], v, rest, raw, rfl, fun u hu => absurd hu List.not_mem_nil, set, bad, ?_⟩
      rcases apply_cases s v raw with ⟨good, -⟩ | ⟨-, misread⟩
      · exact absurd good bad
      · exact readVariables_misread set misread

end Reading

/-- A setting is the one that was read, or else the default, exactly if it is what its value means,
    or else the default. -/
theorem setting_iff {α : Type} {read : String → Option α} {Means : String → α → Prop}
    (reads : ∀ raw a, read raw = some a ↔ Means raw a) {value : Option String} {a default : α}
    (taken : ∀ raw, value = some raw → ∃ a, Means raw a) :
    a = (value.bind read).getD default ↔
      (∀ raw, value = some raw → Means raw a) ∧ (value = none → a = default) := by
  cases value with
  | none =>
    constructor
    · rintro rfl
      exact ⟨fun raw set => absurd set (by simp), fun _ => rfl⟩
    · exact fun means => means.2 rfl
  | some raw =>
    obtain ⟨b, means⟩ := taken raw rfl
    have found := (reads raw b).mpr means
    show a = (read raw).getD default ↔ _
    rw [found]
    constructor
    · rintro rfl
      refine ⟨fun raw' set => ?_, fun unset => absurd unset (by simp)⟩
      obtain rfl := Option.some.inj set
      exact means
    · rintro ⟨means', -⟩
      exact Option.some.inj (((reads raw a).mpr (means' raw rfl)).symm.trans found)

theorem allTaken_all (lookup : String → Option String) :
    AllTaken lookup Variable.all ↔
      ∀ (v : Variable) raw, lookup v.name = some raw → v.Takes raw := by
  constructor
  · intro taken v
    exact taken v (by cases v <;> decide)
  · exact fun taken v _ => taken v

/-- Settings carry what a lookup has exactly if all of it is taken and they are the ones that
    reading ends with. -/
theorem carries_iff (lookup : String → Option String) (s : Settings) :
    s.Carries lookup ↔
      AllTaken lookup Variable.all ∧ s = Variable.all.foldl (overlay lookup) {} := by
  have read : Variable.all.foldl (overlay lookup) {} =
      { buckets := ((lookup Variable.buckets.name).bind (readNumber ·.toList)).getD 0
        shared := ((lookup Variable.shared.name).bind (readSwitch ·.toList)).getD true
        enabled := ((lookup Variable.enabled.name).bind (readSwitch ·.toList)).getD true } := rfl
  have numbers : ∀ (raw : String) (u : UInt64),
      readNumber raw.toList = some u ↔ Number raw.toList u.toNat := fun _ _ => readNumber_iff
  have switches : ∀ (raw : String) position,
      readSwitch raw.toList = some position ↔ Switch raw.toList position :=
    fun _ _ => readSwitch_iff
  have number : ∀ raw : String, (∃ n, Number raw.toList n) →
      ∃ u : UInt64, Number raw.toList u.toNat := by
    intro raw taken
    obtain ⟨u, found⟩ := Option.isSome_iff_exists.mp (takes_number_iff.mp taken)
    exact ⟨u, readNumber_iff.mp found⟩
  rw [read, allTaken_all]
  constructor
  · intro carries
    have taken : ∀ (v : Variable) raw, lookup v.name = some raw → v.Takes raw := by
      intro v raw set
      cases v with
      | buckets => exact ⟨_, carries.buckets raw set⟩
      | shared => exact ⟨_, carries.shared raw set⟩
      | enabled => exact ⟨_, carries.enabled raw set⟩
    refine ⟨taken, ?_⟩
    have buckets := (setting_iff numbers fun raw set => number raw (taken .buckets raw set)).mpr
      ⟨carries.buckets, carries.no_buckets⟩
    have shared := (setting_iff switches (taken .shared)).mpr ⟨carries.shared, carries.no_shared⟩
    have enabled := (setting_iff switches (taken .enabled)).mpr
      ⟨carries.enabled, carries.no_enabled⟩
    rw [← buckets, ← shared, ← enabled, ← carries.minBuckets, ← carries.vnodes, ← carries.locks]
  · rintro ⟨taken, rfl⟩
    obtain ⟨buckets, no_buckets⟩ :=
      (setting_iff numbers fun raw set => number raw (taken .buckets raw set)).mp rfl
    obtain ⟨shared, no_shared⟩ := (setting_iff switches (taken .shared)).mp rfl
    obtain ⟨enabled, no_enabled⟩ := (setting_iff switches (taken .enabled)).mp rfl
    exact ⟨buckets, shared, enabled, no_buckets, no_shared, no_enabled, rfl, rfl, rfl⟩

/-- Reading is the grammar, whatever the lookup.  It goes through exactly if every value that is set
    is in the grammar of its variable; then the settings are what the values mean and the defaults,
    and all three variables were asked for.  Otherwise it ends at the first value that is not, tells
    the value as it was set, and asked for nothing after it.  What is not asked for does not
    matter. -/
theorem fromLookup_follows_grammar (lookup : String → Option String) :
    (∀ s, (fromLookup lookup).2 = .ok s ↔ s.Carries lookup) ∧
    ((∃ s, (fromLookup lookup).2 = .ok s) ↔
      ∀ (v : Variable) raw, lookup v.name = some raw → v.Takes raw) ∧
    (∀ s, (fromLookup lookup).2 = .ok s →
      (fromLookup lookup).1 = Variable.all.map (·.name)) ∧
    (∀ misread, (fromLookup lookup).2 = .error misread →
      ∃ before v after raw, Variable.all = before ++ v :: after ∧
        (∀ u ∈ before, ∀ raw, lookup u.name = some raw → u.Takes raw) ∧
        lookup v.name = some raw ∧ ¬ v.Takes raw ∧ misread = v.misreading raw ∧
        (fromLookup lookup).1 = (before ++ [v]).map (·.name)) ∧
    ∀ other : String → Option String,
      (∀ name ∈ (fromLookup lookup).1, other name = lookup name) →
        fromLookup other = fromLookup lookup := by
  have congr := fun other => @readVariables_congr lookup other Variable.all {}
  rw [← allTaken_all]
  rcases readVariables_cases lookup Variable.all {} with
    ⟨taken, read⟩ | ⟨before, v, after, raw, split, others, set, bad, read⟩
  · change fromLookup lookup = _ at read
    refine ⟨fun s => ?_, ?_, fun s _ => ?_, fun misread stops => ?_, congr⟩
    · rw [carries_iff, read]
      exact ⟨fun same => ⟨taken, (Except.ok.inj same).symm⟩, fun same => congrArg _ same.2.symm⟩
    · rw [read]
      exact iff_of_true ⟨_, rfl⟩ taken
    · rw [read]
    · rw [read] at stops
      exact absurd stops (by simp)
  · change fromLookup lookup = _ at read
    have not_all : ¬ AllTaken lookup Variable.all := by
      intro all
      refine bad (all v ?_ raw set)
      rw [split]
      exact List.mem_append_right before List.mem_cons_self
    have fails : ∀ s, (fromLookup lookup).2 ≠ .ok s := by
      intro s goes
      rw [read] at goes
      exact absurd goes (by simp)
    refine ⟨fun s => ?_, ?_, fun s goes => ?_, fun misread stops => ?_, congr⟩
    · rw [carries_iff]
      exact iff_of_false (fails s) fun carries => not_all carries.1
    · exact iff_of_false (fun ⟨s, goes⟩ => fails s goes) not_all
    · exact absurd goes (fails s)
    · rw [read] at stops
      refine ⟨before, v, after, raw, split, others, set, bad, (Except.error.inj stops).symm, ?_⟩
      rw [read]

end Settings

end NameCache
