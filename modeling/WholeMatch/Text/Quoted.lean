import WholeMatch.Text.Extender
import WholeMatch.Text.Numeral
import WholeMatch.Text.Unprintable

/-!
# Quoted characters and texts

A character is shown between single quotes and a text between double ones. Inside, the quote and
the backslash stand after a backslash, four control characters have a letter or digit of their
own, and what could not be seen is given by its code point.
-/

namespace WholeMatch.Text

/-- A code point in lower-case hexadecimal digits, as in `\u{301}`. -/
def codePointEscape (c : Char) : List Char :=
  ['\\', 'u', '{'] ++ hexadecimal c.toNat ++ ['}']

/-- How a character is written between two of these quotes. -/
def escape (quote c : Char) : List Char :=
  if c = '\x00' then ['\\', '0']
  else if c = '\t' then ['\\', 't']
  else if c = '\r' then ['\\', 'r']
  else if c = '\n' then ['\\', 'n']
  else if c = '\\' ∨ c = quote then ['\\', c]
  else if isExtender c || isUnprintable c then codePointEscape c
  else [c]

/-- A text between two of these quotes. -/
def quoted (quote : Char) (text : List Char) : List Char :=
  quote :: text.flatMap (escape quote) ++ [quote]

/-- A character in single quotes. -/
def quotedChar (c : Char) : List Char := quoted '\'' [c]

/-- A text in double quotes. -/
def quotedText (text : List Char) : List Char := quoted '"' text

/-- Only its own quote is escaped in each of the two forms. -/
example : quotedChar '\'' = ['\'', '\\', '\'', '\''] ∧ quotedChar '"' = ['\'', '"', '\''] ∧
    quotedText ['\''] = ['"', '\'', '"'] := by decide +kernel

/-- An extending character is given by its code point. -/
example : quotedText ['e', '\u0301'] =
    ['"', 'e', '\\', 'u', '{', '3', '0', '1', '}', '"'] := by decide +kernel

end WholeMatch.Text
