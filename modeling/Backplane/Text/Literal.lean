/-!
# Quoted literal form of a string

Diagnostics show a string in double quotes, so that blanks, control characters and invisible
characters can be seen: a quote and a backslash get a backslash, tab, carriage return, line
feed and NUL their short escapes, and every character that does not print, or that combines
with the one before it, becomes `\u{hex}` with lower-case digits and no leading zeros. The
apostrophe stays as it is.

Which characters do not print is a table of Unicode ranges: the controls, the format
characters, the separators other than the space, the private use planes and the
noncharacters; those that combine are the common blocks of combining marks and the variation
selectors.
-/

namespace Backplane.Literal

/-- Code point ranges, first and last included, of characters shown escaped. -/
def escapedRanges : List (Nat × Nat) :=
  [(0x0, 0x1F), (0x7F, 0x9F), (0xA0, 0xA0), (0xAD, 0xAD), (0x300, 0x36F), (0x483, 0x489),
   (0x600, 0x605), (0x61C, 0x61C), (0x6DD, 0x6DD), (0x70F, 0x70F), (0x1680, 0x1680),
   (0x180E, 0x180E), (0x1AB0, 0x1AFF), (0x1DC0, 0x1DFF), (0x2000, 0x200F), (0x2028, 0x202F),
   (0x205F, 0x2064), (0x2066, 0x206F), (0x20D0, 0x20F0), (0x3000, 0x3000), (0xD800, 0xF8FF),
   (0xFDD0, 0xFDEF), (0xFE00, 0xFE0F), (0xFE20, 0xFE2F), (0xFEFF, 0xFEFF),
   (0xFFF0, 0xFFFB), (0xFFFE, 0xFFFF), (0xE0000, 0xE0FFF), (0xF0000, 0x10FFFF)]

/-- Whether a character is shown as `\u{hex}`. -/
def needsEscape (c : Char) : Bool :=
  escapedRanges.any fun (lo, hi) => lo ≤ c.toNat && c.toNat ≤ hi

/-- Lower-case hexadecimal digits of a number, without leading zeros. -/
def hex (n : Nat) : String :=
  String.ofList ((Nat.toDigits 16 n).map Char.toLower)

/-- One character of the literal form. -/
def escapeChar (c : Char) : String :=
  if c == '"' then "\\\""
  else if c == '\\' then "\\\\"
  else if c == '\t' then "\\t"
  else if c == '\r' then "\\r"
  else if c == '\n' then "\\n"
  else if c.toNat == 0 then "\\0"
  else if needsEscape c then "\\u\x7b" ++ hex c.toNat ++ "\x7d"
  else String.singleton c

/-- A string in double quotes, escaped for display. -/
def quote (s : String) : String :=
  "\"" ++ String.join (s.toList.map escapeChar) ++ "\""

end Backplane.Literal
