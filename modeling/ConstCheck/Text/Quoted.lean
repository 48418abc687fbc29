import ConstCheck.Text.Printable

/-!
# Quoted text

A string between double quotes and a character between single quotes. The enclosing quote and
the backslash are escaped, four controls have letters of their own, and every other character
that cannot be shown as itself is written as its code point in hexadecimal, in braces.

* `Text.escape`: one character.
* `Text.quote`, `Text.quoteChar`: a string, a character.
-/

namespace ConstCheck.Text

/-- The code point of a character, `\u` and hexadecimal digits in braces. -/
def codePointEscape (c : Char) : String :=
  "\\u\x7b" ++ String.ofList (Nat.toDigits 16 c.toNat) ++ "\x7d"

/-- The written form of a character between two marks. -/
def escape (mark : Char) (c : Char) : String :=
  if c == mark || c == '\\' then "\\" ++ c.toString
  else if c == '\t' then "\\t"
  else if c == '\r' then "\\r"
  else if c == '\n' then "\\n"
  else if c == '\x00' then "\\0"
  else if isUnprintable c || extendsGrapheme c then codePointEscape c
  else c.toString

/-- A string in double quotes. -/
def quote (s : String) : String :=
  "\"" ++ String.join (s.toList.map (escape '"')) ++ "\""

/-- A character in single quotes. -/
def quoteChar (c : Char) : String := "'" ++ escape '\'' c ++ "'"

end ConstCheck.Text
