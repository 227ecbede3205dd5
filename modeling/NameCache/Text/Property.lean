/-
  Two properties of characters, each a union of tables of code point ranges.

  `isBlank` is the Unicode property White_Space, all of it.  `isHidden` holds of the characters
  that a quoted text never shows as they are: controls, separators other than the plain space,
  format characters, private use, code points without a character, marks that attach to the
  character before them, and the fillers, letters that have no shape.
-/
import NameCache.Text.Property.Extending
import NameCache.Text.Property.Unassigned

namespace NameCache.Text

/-- The code points with the property White_Space. -/
def blankRanges : Ranges :=
  [(0x09, 0x0D), (0x20, 0x20), (0x85, 0x85), (0xA0, 0xA0), (0x1680, 0x1680), (0x2000, 0x200A),
   (0x2028, 0x2029), (0x202F, 0x202F), (0x205F, 0x205F), (0x3000, 0x3000)]

/-- White space. -/
def isBlank (c : Char) : Bool := blankRanges.covers c

/-- Controls, and separators other than the plain space. -/
def controlRanges : Ranges :=
  [(0x00, 0x1F), (0x7F, 0xA0), (0x1680, 0x1680), (0x2000, 0x200A), (0x2028, 0x2029),
   (0x202F, 0x202F), (0x205F, 0x205F), (0x3000, 0x3000)]

/-- Format characters (general category Cf): they steer the text around them. -/
def formatRanges : Ranges :=
  [(0xAD, 0xAD), (0x600, 0x605), (0x61C, 0x61C), (0x6DD, 0x6DD), (0x70F, 0x70F), (0x890, 0x891),
   (0x8E2, 0x8E2), (0x180E, 0x180E), (0x200B, 0x200F), (0x202A, 0x202E), (0x2060, 0x2064),
   (0x2066, 0x206F), (0xFEFF, 0xFEFF), (0xFFF9, 0xFFFB), (0x110BD, 0x110BD), (0x110CD, 0x110CD),
   (0x13430, 0x1343F), (0x1BCA0, 0x1BCA3), (0x1D173, 0x1D17A), (0xE0001, 0xE0001),
   (0xE0020, 0xE007F)]

/-- Private use (general category Co). -/
def privateRanges : Ranges :=
  [(0xE000, 0xF8FF), (0xF0000, 0xFFFFD), (0x100000, 0x10FFFD)]

/-- The Hangul fillers, the letters that are ignored where they cannot be shown: they fill the
    place of a consonant or a vowel and leave it empty. -/
def fillerRanges : Ranges := [(0x115F, 0x1160), (0x3164, 0x3164), (0xFFA0, 0xFFA0)]

/-- Characters that a quoted text writes by their number. -/
def isHidden (c : Char) : Bool :=
  [controlRanges, formatRanges, privateRanges, fillerRanges, extendingRanges,
    unassignedRanges].any (·.covers c)

/-! ## The tables ascend -/

example : blankRanges.ascends = true ∧ blankRanges.size = 25 := by decide
example : [controlRanges, formatRanges, privateRanges, fillerRanges].all Ranges.ascends = true := by
  decide

/-! ## The plain space is blank and shown; a zero-width joiner is hidden and not blank -/

example : isBlank ' ' = true ∧ isHidden ' ' = false := by decide
example : isBlank '\u200D' = false ∧ isHidden '\u200D' = true := by decide
example : isHidden '\uFFFD' = false := by decide +kernel

/-! ## A sound mark of full width attaches to its letter; the halfwidth one stands by itself -/

example : isHidden '\u3099' = true ∧ isHidden '\uFF9E' = false := by decide +kernel

end NameCache.Text
