import Sexpr.Text.Printable

/-!
# Quoted text

A name is quoted character by character, so the quoted form of a text is the
quoted forms of its parts in order. Five characters have a short escape besides
the null character; everything else that cannot stand for itself is written by
its code point.
-/

namespace Sexpr.Text

/-- Digits to the base sixteen, in lower case. -/
def hex (n : Nat) : String :=
  String.ofList (Nat.toDigits 16 n)

/-- A character inside quotation marks. -/
def quotedChar (c : Char) : String :=
  if c = '\x00' then "\\0"
  else if c = '\t' then "\\t"
  else if c = '\n' then "\\n"
  else if c = '\r' then "\\r"
  else if c = '"' then "\\\""
  else if c = '\\' then "\\\\"
  else if isPrintable c then c.toString
  else "\\u\x7b" ++ hex c.toNat ++ "\x7d"

def quoted (text : String) : String :=
  text.toList.foldl (fun written c => written ++ quotedChar c) "\"" ++ "\""

end Sexpr.Text
