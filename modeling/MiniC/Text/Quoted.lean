import MiniC.Text.Printable

/-!
Quoted text.

A text is shown between double quotes on one line: the quote, the backslash and
the common control characters have two-character escapes, and every other
character without a visible form of its own is written as its code point in hex.
-/

namespace MiniC.Text

def hexDigits (number : Nat) : String :=
  String.ofList (Nat.toDigits 16 number)

def quoteChar (char : Char) : String :=
  if char = '"' then "\\\""
  else if char = '\\' then "\\\\"
  else if char = '\n' then "\\n"
  else if char = '\r' then "\\r"
  else if char = '\t' then "\\t"
  else if char.toNat = 0 then "\\0"
  else if isPrintable char then char.toString
  else "\\u\x7b" ++ hexDigits char.toNat ++ "\x7d"

def quote (text : String) : String :=
  "\"" ++ String.join (text.toList.map quoteChar) ++ "\""

end MiniC.Text
