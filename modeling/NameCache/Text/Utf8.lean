/-
  Bytes read as UTF-8.

  The reader is a machine that takes one byte at a time.  Between characters it waits for a first
  byte; inside a character it knows how many continuation bytes are owed and the range the next of
  them must lie in, so overlong forms, surrogates and code points above 10FFFF are refused at the
  first byte that rules them out.  Each maximal run of bytes that begins a character and does not
  finish it counts as one flaw, and the byte that broke it is read afresh.

  `lossy` shows every flaw as one replacement character; `strict?` accepts only flawless bytes.
-/
/-- The bytes of a name. -/
abbrev NameCache.Bytes := List UInt8

namespace NameCache.Text.Utf8

/-- A character under way: its bits so far, the bytes still owed, and the bounds of the next. -/
structure Pending where
  bits : Nat
  owed : Nat
  low : Nat
  high : Nat

/-- What a first byte does: it is a character, it opens one, or no character begins with it. -/
inductive Lead where
  | whole (c : Char)
  | opens (p : Pending)
  | stray

/-- The role of `b` between characters. -/
def lead (b : UInt8) : Lead :=
  let n := b.toNat
  if n < 0x80 then .whole (Char.ofNat n)
  else if n < 0xC2 then .stray
  else if n < 0xE0 then .opens ⟨n - 0xC0, 1, 0x80, 0xBF⟩
  else if n = 0xE0 then .opens ⟨0, 2, 0xA0, 0xBF⟩
  else if n = 0xED then .opens ⟨0xD, 2, 0x80, 0x9F⟩
  else if n < 0xF0 then .opens ⟨n - 0xE0, 2, 0x80, 0xBF⟩
  else if n = 0xF0 then .opens ⟨0, 3, 0x90, 0xBF⟩
  else if n < 0xF4 then .opens ⟨n - 0xF0, 3, 0x80, 0xBF⟩
  else if n = 0xF4 then .opens ⟨4, 3, 0x80, 0x8F⟩
  else .stray

/-- A byte read between characters: what it completes (`none` for a flaw), and what it opens. -/
def start (b : UInt8) : List (Option Char) × Option Pending :=
  match lead b with
  | .whole c => ([some c], none)
  | .opens p => ([], some p)
  | .stray => ([none], none)

/-- A byte read in any state.  A byte out of bounds makes the pending character a flaw and is then
    read as a first byte. -/
def step : Option Pending → UInt8 → List (Option Char) × Option Pending
  | none, b => start b
  | some p, b =>
    if p.low ≤ b.toNat ∧ b.toNat ≤ p.high then
      let bits := p.bits * 64 + (b.toNat - 0x80)
      if p.owed = 1 then ([some (Char.ofNat bits)], none)
      else ([], some ⟨bits, p.owed - 1, 0x80, 0xBF⟩)
    else
      let (done, next) := start b
      (none :: done, next)

/-- The characters and flaws of a byte string, from a given state.  A character still pending at
    the end is a flaw. -/
def scan : Option Pending → Bytes → List (Option Char)
  | none, [] => []
  | some _, [] => [none]
  | state, b :: rest =>
    let (done, next) := step state b
    done ++ scan next rest

/-- The text of a byte string, each flaw shown as U+FFFD. -/
def lossy (bytes : Bytes) : List Char :=
  (scan none bytes).map fun c => c.getD '\uFFFD'

/-- The text of a byte string that has no flaw. -/
def strict? (bytes : Bytes) : Option (List Char) :=
  (scan none bytes).mapM id

/-! ## A three-byte character, a cut-off one, a surrogate, and a stray byte -/

example : strict? [0xE2, 0x82, 0xAC] = some ['€'] := by decide
example : lossy [0xE2, 0x82, 0x41] = ['\uFFFD', 'A'] := by decide
example : lossy [0xED, 0xA0, 0x80] = ['\uFFFD', '\uFFFD', '\uFFFD'] := by decide
example : strict? [0x41, 0xFF] = none := by decide

end NameCache.Text.Utf8
