import NoWait.Text.Unprintable

/-!
# Quoted text

A text is quoted by a double quote at either end.  Within, a double quote and a backslash are preceded
by a backslash, the null character, tab, line feed and carriage return are written by a letter or digit
behind one, and a character that has no printed form of its own is written by its number.
-/

namespace NoWait.Text

/-- The lower-case hexadecimal digits of a number, without leading zeros. -/
def hexNumber (n : Nat) : String := String.ofList (Nat.toDigits 16 n)

/-- A character as it is written between quotes. -/
def quoteChar (c : Char) : String :=
  if c = '"' then "\\\""
  else if c = '\\' then "\\\\"
  else if c = '\n' then "\\n"
  else if c = '\r' then "\\r"
  else if c = '\t' then "\\t"
  else if c.toNat = 0 then "\\0"
  else if isUnprintable c then "\\u\x7b" ++ hexNumber c.toNat ++ "\x7d"
  else c.toString

/-- A text in quotes. -/
def quote (text : String) : String :=
  "\"" ++ String.join (text.toList.map quoteChar) ++ "\""

end NoWait.Text
