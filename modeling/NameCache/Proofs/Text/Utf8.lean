/-
  Bytes are accepted as UTF-8 exactly if they are the writing of a text, and the text is given back.

  `encode` writes a text character by character.  The reader knows nothing of it: it takes one byte
  at a time and keeps what it owes.

  1. **First bytes** (`lead_kind`).  A first byte is a character, opens one of two, three or four
     bytes, or is stray; in an opened one only the second byte has bounds of its own.
  2. **Characters** (`encodeChar_eq_cons_iff`).  `Pending.Finishes` says which bytes finish a
     character under way, one byte at a time as the reader takes them.  A byte and the bytes after
     it are the writing of a character exactly if the byte opens what they finish as it.
  3. **Texts** (`scan_eq_iff`).  What the bytes from a state on tell (`Tells`) splits at the first
     byte as the step of the reader does, so the induction is on the bytes.
-/
import NameCache.Text.Utf8

namespace NameCache.Text.Utf8

/-- A text as bytes. -/
def encode (text : List Char) : Bytes := text.flatMap String.utf8EncodeChar

/-- The bytes are the writing of some text. -/
def Encoded (bytes : Bytes) : Prop := ∃ text, bytes = encode text

/-- A character under way after one more byte, of more than one that it owes. -/
def Pending.after (p : Pending) (b : UInt8) : Pending :=
  ⟨p.bits * 64 + (b.toNat - 0x80), p.owed - 1, 0x80, 0xBF⟩

/-- The bytes that finish a character under way, and which character it becomes. -/
inductive Pending.Finishes : Pending → Bytes → Char → Prop
  | last {p : Pending} {b : UInt8} (owed : p.owed = 1) (low : p.low ≤ b.toNat)
    (high : b.toNat ≤ p.high) :
    Finishes p [b] (Char.ofNat (p.bits * 64 + (b.toNat - 0x80)))
  | more {p : Pending} {b : UInt8} {bytes : Bytes} {c : Char} (owed : p.owed ≠ 1)
    (low : p.low ≤ b.toNat) (high : b.toNat ≤ p.high) (rest : (p.after b).Finishes bytes c) :
    Finishes p (b :: bytes) c

/-- What the bytes from a state on tell: the text that they are the writing of, less the bytes of
    its first character that were read before. -/
def Tells : Option Pending → Bytes → List Char → Prop
  | none, bytes, text => bytes = encode text
  | some p, bytes, text =>
    ∃ c rest front, text = c :: rest ∧ bytes = front ++ encode rest ∧ p.Finishes front c

/-! ## First bytes -/

/-- What the first byte of value `n` does. -/
inductive Lead.Kind (n : Nat) : Lead → Prop
  | whole (ascii : n < 0x80) : Kind n (.whole (Char.ofNat n))
  | two (least : 0xC2 ≤ n) (most : n < 0xE0) : Kind n (.opens ⟨n - 0xC0, 1, 0x80, 0xBF⟩)
  | three {low high : Nat} (least : 0xE0 ≤ n) (most : n < 0xF0)
    (from_low : low = 0x80 ∧ n ≠ 0xE0 ∨ low = 0xA0 ∧ n = 0xE0)
    (to_high : high = 0xBF ∧ n ≠ 0xED ∨ high = 0x9F ∧ n = 0xED) :
    Kind n (.opens ⟨n - 0xE0, 2, low, high⟩)
  | four {low high : Nat} (least : 0xF0 ≤ n) (most : n < 0xF5)
    (from_low : low = 0x80 ∧ n ≠ 0xF0 ∨ low = 0x90 ∧ n = 0xF0)
    (to_high : high = 0xBF ∧ n ≠ 0xF4 ∨ high = 0x8F ∧ n = 0xF4) :
    Kind n (.opens ⟨n - 0xF0, 3, low, high⟩)
  | stray (outside : 0x80 ≤ n ∧ n < 0xC2 ∨ 0xF5 ≤ n) : Kind n .stray

theorem lead_kind (b : UInt8) : Lead.Kind b.toNat (lead b) := by
  unfold lead
  dsimp only
  generalize b.toNat = n
  by_cases ascii : n < 0x80
  · rw [if_pos ascii]
    exact .whole ascii
  rw [if_neg ascii]
  by_cases trailing : n < 0xC2
  · rw [if_pos trailing]
    exact .stray (by omega)
  rw [if_neg trailing]
  by_cases two : n < 0xE0
  · rw [if_pos two]
    exact .two (by omega) two
  rw [if_neg two]
  -- the first lead of three bytes leaves out overlong forms, and one leaves out the surrogates
  by_cases least_of_three : n = 0xE0
  · rw [if_pos least_of_three]
    subst n
    exact .three (by omega) (by omega) (by omega) (by omega)
  rw [if_neg least_of_three]
  by_cases surrogates : n = 0xED
  · rw [if_pos surrogates]
    subst n
    exact .three (by omega) (by omega) (by omega) (by omega)
  rw [if_neg surrogates]
  by_cases three : n < 0xF0
  · rw [if_pos three]
    exact .three (by omega) three (by omega) (by omega)
  rw [if_neg three]
  -- of four bytes the first lead leaves out overlong forms, and the last what is no code point
  by_cases least_of_four : n = 0xF0
  · rw [if_pos least_of_four]
    subst n
    exact .four (by omega) (by omega) (by omega) (by omega)
  rw [if_neg least_of_four]
  by_cases four : n < 0xF4
  · rw [if_pos four]
    exact .four (by omega) (by omega) (by omega) (by omega)
  rw [if_neg four]
  by_cases last : n = 0xF4
  · rw [if_pos last]
    subst n
    exact .four (by omega) (by omega) (by omega) (by omega)
  · rw [if_neg last]
    exact .stray (by omega)

section Lead

variable {b : UInt8}

theorem lead_whole (ascii : b.toNat < 0x80) : lead b = .whole (Char.ofNat b.toNat) := by
  have kind := lead_kind b
  generalize lead b = l at kind
  cases kind with
  | whole => rfl
  | _ => omega

theorem lead_two (least : 0xC2 ≤ b.toNat) (most : b.toNat < 0xE0) :
    lead b = .opens ⟨b.toNat - 0xC0, 1, 0x80, 0xBF⟩ := by
  have kind := lead_kind b
  generalize lead b = l at kind
  cases kind with
  | two => rfl
  | _ => omega

theorem lead_three (least : 0xE0 ≤ b.toNat) (most : b.toNat < 0xF0) :
    ∃ low high, (low = 0x80 ∧ b.toNat ≠ 0xE0 ∨ low = 0xA0 ∧ b.toNat = 0xE0) ∧
      (high = 0xBF ∧ b.toNat ≠ 0xED ∨ high = 0x9F ∧ b.toNat = 0xED) ∧
      lead b = .opens ⟨b.toNat - 0xE0, 2, low, high⟩ := by
  have kind := lead_kind b
  generalize lead b = l at kind
  cases kind with
  | three _ _ from_low to_high => exact ⟨_, _, from_low, to_high, rfl⟩
  | _ => omega

theorem lead_four (least : 0xF0 ≤ b.toNat) (most : b.toNat < 0xF5) :
    ∃ low high, (low = 0x80 ∧ b.toNat ≠ 0xF0 ∨ low = 0x90 ∧ b.toNat = 0xF0) ∧
      (high = 0xBF ∧ b.toNat ≠ 0xF4 ∨ high = 0x8F ∧ b.toNat = 0xF4) ∧
      lead b = .opens ⟨b.toNat - 0xF0, 3, low, high⟩ := by
  have kind := lead_kind b
  generalize lead b = l at kind
  cases kind with
  | four _ _ from_low to_high => exact ⟨_, _, from_low, to_high, rfl⟩
  | _ => omega

end Lead

/-! ## Characters -/

theorem finishes_last_iff {bits low high : Nat} {bytes : Bytes} {c : Char} :
    (Pending.mk bits 1 low high).Finishes bytes c ↔
      ∃ b, bytes = [b] ∧ low ≤ b.toNat ∧ b.toNat ≤ high ∧
        c = Char.ofNat (bits * 64 + (b.toNat - 0x80)) := by
  constructor
  · intro finishes
    cases finishes with
    | last _ from_low to_high => exact ⟨_, rfl, from_low, to_high, rfl⟩
    | more owed => exact (owed rfl).elim
  · rintro ⟨b, rfl, from_low, to_high, same⟩
    rw [same]
    exact .last rfl from_low to_high

theorem finishes_more_iff {bits owed low high : Nat} {bytes : Bytes} {c : Char} :
    (Pending.mk bits (owed + 2) low high).Finishes bytes c ↔
      ∃ b rest, bytes = b :: rest ∧ low ≤ b.toNat ∧ b.toNat ≤ high ∧
        (Pending.mk (bits * 64 + (b.toNat - 0x80)) (owed + 1) 0x80 0xBF).Finishes rest c := by
  constructor
  · intro finishes
    cases finishes with
    | last owes =>
      replace owes : owed + 2 = 1 := owes
      omega
    | more _ from_low to_high rest => exact ⟨_, _, rfl, from_low, to_high, rest⟩
  · rintro ⟨b, rest, rfl, from_low, to_high, finishes⟩
    refine .more ?_ from_low to_high finishes
    show owed + 2 ≠ 1
    omega

/-- The code points of characters are those that are no surrogates. -/
theorem toNat_char (c : Char) : c.toNat < 0xD800 ∨ 0xDFFF < c.toNat ∧ c.toNat < 0x110000 := c.valid

theorem toNat_ofNat {n : Nat} (scalar : n < 0xD800 ∨ 0xDFFF < n ∧ n < 0x110000) :
    (Char.ofNat n).toNat = n := by
  unfold Char.ofNat
  rw [dif_pos scalar]
  rfl

theorem ofNat_eq_iff {n : Nat} {b : UInt8} (small : n < 256) : UInt8.ofNat n = b ↔ n = b.toNat := by
  constructor
  · rintro rfl
    exact (UInt8.toNat_ofNat_of_lt' small).symm
  · rintro rfl
    exact UInt8.ofNat_toNat

section Widths

variable {c : Char}

theorem encodeChar_one (most : c.toNat ≤ 0x7F) :
    String.utf8EncodeChar c = [UInt8.ofNat c.toNat] := if_pos most

theorem encodeChar_two (least : 0x7F < c.toNat) (most : c.toNat ≤ 0x7FF) :
    String.utf8EncodeChar c =
      [UInt8.ofNat (c.toNat / 64 % 32 + 192), UInt8.ofNat (c.toNat % 64 + 128)] :=
  (if_neg (Nat.not_le.mpr least)).trans (if_pos most)

theorem encodeChar_three (least : 0x7FF < c.toNat) (most : c.toNat ≤ 0xFFFF) :
    String.utf8EncodeChar c =
      [UInt8.ofNat (c.toNat / 4096 % 16 + 224), UInt8.ofNat (c.toNat / 64 % 64 + 128),
        UInt8.ofNat (c.toNat % 64 + 128)] :=
  ((if_neg (by show ¬ c.toNat ≤ 0x7F; omega)).trans (if_neg (Nat.not_le.mpr least))).trans
    (if_pos most)

theorem encodeChar_four (least : 0xFFFF < c.toNat) :
    String.utf8EncodeChar c =
      [UInt8.ofNat (c.toNat / 262144 % 8 + 240), UInt8.ofNat (c.toNat / 4096 % 64 + 128),
        UInt8.ofNat (c.toNat / 64 % 64 + 128), UInt8.ofNat (c.toNat % 64 + 128)] :=
  ((if_neg (by show ¬ c.toNat ≤ 0x7F; omega)).trans
    (if_neg (by show ¬ c.toNat ≤ 0x7FF; omega))).trans (if_neg (Nat.not_le.mpr least))

end Widths

/-- The character that a first byte and the bytes after it are the writing of. -/
def Lead.Begins : Lead → Bytes → Char → Prop
  | .whole d, rest, c => rest = [] ∧ c = d
  | .opens p, rest, c => p.Finishes rest c
  | .stray, _, _ => False

theorem begins_of_encodeChar {b : UInt8} {rest : Bytes} {c : Char}
    (written : String.utf8EncodeChar c = b :: rest) : (lead b).Begins rest c := by
  have scalar := toNat_char c
  have value {n : Nat} (same : n = c.toNat) : c = Char.ofNat n := by rw [same, Char.ofNat_toNat]
  -- a byte after the first is its six bits and 0x80
  have trailing (n : Nat) : (UInt8.ofNat (n % 64 + 128)).toNat = n % 64 + 128 :=
    UInt8.toNat_ofNat_of_lt' (by show _ < 256; omega)
  have last := trailing c.toNat
  have middle := trailing (c.toNat / 64)
  have second := trailing (c.toNat / 4096)
  by_cases one : c.toNat ≤ 0x7F
  · rw [encodeChar_one one] at written
    obtain ⟨first, rfl⟩ := List.cons.inj written
    replace first := (ofNat_eq_iff (by omega)).mp first
    rw [lead_whole (by omega)]
    exact ⟨rfl, value first.symm⟩
  by_cases two : c.toNat ≤ 0x7FF
  · rw [encodeChar_two (by omega) two] at written
    obtain ⟨first, rfl⟩ := List.cons.inj written
    replace first := (ofNat_eq_iff (by omega)).mp first
    rw [lead_two (by omega) (by omega)]
    exact finishes_last_iff.mpr ⟨_, rfl, by omega, by omega, value (by omega)⟩
  by_cases three : c.toNat ≤ 0xFFFF
  · rw [encodeChar_three (by omega) three] at written
    obtain ⟨first, rfl⟩ := List.cons.inj written
    replace first := (ofNat_eq_iff (by omega)).mp first
    obtain ⟨low, high, from_low, to_high, opens⟩ := lead_three (b := b) (by omega) (by omega)
    rw [opens]
    exact finishes_more_iff.mpr ⟨_, _, rfl, by omega, by omega,
      finishes_last_iff.mpr ⟨_, rfl, by omega, by omega, value (by omega)⟩⟩
  · rw [encodeChar_four (by omega)] at written
    obtain ⟨first, rfl⟩ := List.cons.inj written
    replace first := (ofNat_eq_iff (by omega)).mp first
    obtain ⟨low, high, from_low, to_high, opens⟩ := lead_four (b := b) (by omega) (by omega)
    rw [opens]
    exact finishes_more_iff.mpr ⟨_, _, rfl, by omega, by omega,
      finishes_more_iff.mpr ⟨_, _, rfl, by omega, by omega,
        finishes_last_iff.mpr ⟨_, rfl, by omega, by omega, value (by omega)⟩⟩⟩

theorem encodeChar_of_begins {b : UInt8} {rest : Bytes} {c : Char}
    (begins : (lead b).Begins rest c) : String.utf8EncodeChar c = b :: rest := by
  -- the bounds of the second byte keep the code point to its width, and off the surrogates
  have kind := lead_kind b
  have bound := b.toNat_lt
  generalize lead b = l at begins kind
  cases kind with
  | whole ascii =>
    obtain ⟨rfl, same⟩ := begins
    have value : c.toNat = b.toNat := same ▸ toNat_ofNat (by omega)
    rw [encodeChar_one (by omega), value, UInt8.ofNat_toNat]
  | two least most =>
    obtain ⟨x, rfl, x_low, x_high, same⟩ := finishes_last_iff.mp begins
    have value : c.toNat = (b.toNat - 0xC0) * 64 + (x.toNat - 0x80) :=
      same ▸ toNat_ofNat (by omega)
    rw [encodeChar_two (by omega) (by omega), (ofNat_eq_iff (b := b) (by omega)).mpr (by omega),
      (ofNat_eq_iff (b := x) (by omega)).mpr (by omega)]
  | three least most from_low to_high =>
    obtain ⟨x, _, rfl, x_low, x_high, finishes⟩ := finishes_more_iff.mp begins
    obtain ⟨y, rfl, y_low, y_high, same⟩ := finishes_last_iff.mp finishes
    have value : c.toNat =
        ((b.toNat - 0xE0) * 64 + (x.toNat - 0x80)) * 64 + (y.toNat - 0x80) :=
      same ▸ toNat_ofNat (by omega)
    rw [encodeChar_three (by omega) (by omega), (ofNat_eq_iff (b := b) (by omega)).mpr (by omega),
      (ofNat_eq_iff (b := x) (by omega)).mpr (by omega),
      (ofNat_eq_iff (b := y) (by omega)).mpr (by omega)]
  | four least most from_low to_high =>
    obtain ⟨x, _, rfl, x_low, x_high, finishes⟩ := finishes_more_iff.mp begins
    obtain ⟨y, _, rfl, y_low, y_high, finishes⟩ := finishes_more_iff.mp finishes
    obtain ⟨z, rfl, z_low, z_high, same⟩ := finishes_last_iff.mp finishes
    have value : c.toNat = (((b.toNat - 0xF0) * 64 + (x.toNat - 0x80)) * 64 +
        (y.toNat - 0x80)) * 64 + (z.toNat - 0x80) := same ▸ toNat_ofNat (by omega)
    rw [encodeChar_four (by omega), (ofNat_eq_iff (b := b) (by omega)).mpr (by omega),
      (ofNat_eq_iff (b := x) (by omega)).mpr (by omega),
      (ofNat_eq_iff (b := y) (by omega)).mpr (by omega),
      (ofNat_eq_iff (b := z) (by omega)).mpr (by omega)]
  | stray => exact begins.elim

/-- A byte and the bytes after it are the writing of a character exactly if the byte begins it. -/
theorem encodeChar_eq_cons_iff {b : UInt8} {rest : Bytes} {c : Char} :
    String.utf8EncodeChar c = b :: rest ↔ (lead b).Begins rest c :=
  ⟨begins_of_encodeChar, encodeChar_of_begins⟩

/-! ## Texts -/

section Texts

variable {b : UInt8} {bytes front : Bytes} {c : Char} {text : List Char} {p : Pending}
  {told : List (Option Char)}

theorem encode_eq_cons_iff :
    b :: bytes = encode text ↔
      ∃ c rest front, text = c :: rest ∧ bytes = front ++ encode rest ∧
        String.utf8EncodeChar c = b :: front := by
  constructor
  · intro written
    cases text with
    | nil => cases written
    | cons c rest =>
      replace written : b :: bytes = String.utf8EncodeChar c ++ encode rest := written
      cases first : String.utf8EncodeChar c with
      | nil => exact absurd first String.utf8EncodeChar_ne_nil
      | cons x front =>
        rw [first] at written
        obtain ⟨rfl, same⟩ := List.cons.inj written
        exact ⟨c, rest, front, rfl, same, first⟩
  · rintro ⟨c, rest, front, rfl, rfl, first⟩
    show _ = String.utf8EncodeChar c ++ encode rest
    rw [first]
    rfl

theorem tells_none_cons :
    Tells none (b :: bytes) text ↔
      ∃ c rest front, text = c :: rest ∧ bytes = front ++ encode rest ∧
        (lead b).Begins front c := by
  show b :: bytes = encode text ↔ _
  rw [encode_eq_cons_iff]
  simp only [encodeChar_eq_cons_iff]

/-- The next byte of a character under way ends it, or leaves it under way. -/
theorem tells_some_cons :
    Tells (some p) (b :: bytes) text ↔
      (p.low ≤ b.toNat ∧ b.toNat ≤ p.high) ∧
        if p.owed = 1 then
          ∃ rest, text = Char.ofNat (p.bits * 64 + (b.toNat - 0x80)) :: rest ∧
            bytes = encode rest
        else Tells (some (p.after b)) bytes text := by
  constructor
  · rintro ⟨c, rest, front, rfl, split, finishes⟩
    cases finishes with
    | last owed low high =>
      obtain ⟨rfl, same⟩ := List.cons.inj split
      rw [if_pos owed]
      exact ⟨⟨low, high⟩, rest, rfl, same⟩
    | more owed low high finishes =>
      obtain ⟨rfl, same⟩ := List.cons.inj split
      rw [if_neg owed]
      exact ⟨⟨low, high⟩, c, rest, _, rfl, same, finishes⟩
  · rintro ⟨⟨low, high⟩, tells⟩
    split at tells
    case isTrue owed =>
      obtain ⟨rest, rfl, rfl⟩ := tells
      exact ⟨_, rest, [b], rfl, rfl, .last owed low high⟩
    case isFalse owed =>
      obtain ⟨c, rest, front, rfl, rfl, finishes⟩ := tells
      exact ⟨c, rest, b :: front, rfl, rfl, .more owed low high finishes⟩

theorem some_cons_eq_map_iff :
    some c :: told = text.map some ↔ ∃ rest, text = c :: rest ∧ told = rest.map some := by
  rw [eq_comm, List.map_eq_cons_iff]
  constructor
  · rintro ⟨d, rest, rfl, same, rfl⟩
    exact ⟨rest, congrArg (· :: rest) (Option.some.inj same), rfl⟩
  · rintro ⟨rest, rfl, rfl⟩
    exact ⟨c, rest, rfl, rfl, rfl⟩

theorem none_cons_ne_map : none :: told ≠ text.map some := by
  cases text <;> simp

/-- From any state on, the characters that are read, without a flaw, are those that the bytes
    tell. -/
theorem scan_eq_iff {state : Option Pending} :
    scan state bytes = text.map some ↔ Tells state bytes text := by
  induction bytes generalizing state text with
  | nil =>
    cases state with
    | none =>
      cases text with
      | nil => exact iff_of_true rfl rfl
      | cons c rest =>
        refine iff_of_false (List.cons_ne_nil _ _).symm fun written => ?_
        have none_left := List.append_eq_nil_iff.mp (Eq.symm written)
        exact String.utf8EncodeChar_ne_nil none_left.1
    | some p =>
      refine iff_of_false none_cons_ne_map ?_
      rintro ⟨c, rest, front, -, split, finishes⟩
      obtain ⟨rfl, -⟩ := List.append_eq_nil_iff.mp split.symm
      cases finishes
  | cons b bytes ih =>
    cases state with
    | none =>
      show (start b).1 ++ scan (start b).2 bytes = _ ↔ _
      rw [tells_none_cons]
      unfold start
      cases lead b with
      | whole d =>
        show some d :: scan none bytes = _ ↔ _
        rw [some_cons_eq_map_iff]
        constructor
        · rintro ⟨rest, rfl, read⟩
          exact ⟨d, rest, [], rfl, ih.mp read, rfl, rfl⟩
        · rintro ⟨c, rest, front, rfl, written, rfl, rfl⟩
          exact ⟨rest, rfl, ih.mpr written⟩
      | opens p => exact ih
      | stray =>
        refine iff_of_false none_cons_ne_map ?_
        rintro ⟨_, _, _, _, _, begins⟩
        exact begins
    | some p =>
      show (step (some p) b).1 ++ scan (step (some p) b).2 bytes = _ ↔ _
      rw [tells_some_cons]
      unfold step
      dsimp only
      by_cases bounds : p.low ≤ b.toNat ∧ b.toNat ≤ p.high
      · rw [if_pos bounds, and_iff_right bounds]
        by_cases owed : p.owed = 1
        · rw [if_pos owed, if_pos owed]
          show some _ :: scan none bytes = _ ↔ _
          rw [some_cons_eq_map_iff]
          exact exists_congr fun rest => and_congr_right fun _ => ih
        · rw [if_neg owed, if_neg owed]
          exact ih
      · rw [if_neg bounds]
        exact iff_of_false none_cons_ne_map fun tells => bounds tells.1

end Texts

/-- Of characters and flaws, the characters, if there is no flaw. -/
theorem mapM_id_eq_some_iff {told : List (Option Char)} {text : List Char} :
    told.mapM id = some text ↔ told = text.map some := by
  induction told generalizing text with
  | nil =>
    cases text with
    | nil => exact iff_of_true rfl rfl
    | cons c rest => exact iff_of_false (by simp) (by simp)
  | cons first told ih =>
    rw [List.mapM_cons]
    cases first with
    | none => exact iff_of_false (by simp) none_cons_ne_map
    | some c =>
      show (told.mapM id).bind (fun rest => some (c :: rest)) = some text ↔ _
      rw [Option.bind_eq_some_iff, some_cons_eq_map_iff]
      constructor
      · rintro ⟨rest, read, same⟩
        exact ⟨rest, (Option.some.inj same).symm, ih.mp read⟩
      · rintro ⟨rest, rfl, read⟩
        exact ⟨rest, ih.mpr read, rfl⟩

/-- Bytes are accepted exactly if they are the writing of a text, and then they are read as that
    text. -/
theorem strict?_eq_some_iff {bytes : Bytes} {text : List Char} :
    strict? bytes = some text ↔ bytes = encode text := by
  rw [strict?, mapM_id_eq_some_iff, scan_eq_iff]
  exact Iff.rfl

end NameCache.Text.Utf8
