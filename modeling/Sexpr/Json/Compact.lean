import Sexpr.Json.Basic

/-!
# Documents in writing

A document is written without blanks. In a string only the quotation mark, the
backslash and the control characters below the space are escaped, the common
ones by a letter and the others by four digits to the base sixteen. Everything
is written behind a text that is already there, so writing a document takes
time in proportion to its size.
-/

namespace Sexpr

namespace Json

def hexDigit (n : Nat) : Char :=
  Nat.digitChar n

/-- A character inside a string. -/
def escapedChar (c : Char) : String :=
  if c = '"' then "\\\""
  else if c = '\\' then "\\\\"
  else if c = '\x08' then "\\b"
  else if c = '\x0c' then "\\f"
  else if c = '\n' then "\\n"
  else if c = '\r' then "\\r"
  else if c = '\t' then "\\t"
  else if c.toNat < 0x20 then
    ("\\u00".push (hexDigit (c.toNat / 16))).push (hexDigit (c.toNat % 16))
  else c.toString

/-- Adds a string in quotation marks to a text. A string that is no text is
written as an escape that makes none. -/
def stringOnto (written : String) : Option String → String
  | some text =>
      text.toList.foldl (fun written c => written ++ escapedChar c) (written ++ "\"") ++ "\""
  | none => written ++ "\"\\ud800\""

mutual

def writeOnto (written : String) : Json → String
  | null => written ++ "null"
  | boolean flag => written ++ (if flag then "true" else "false")
  | number literal => written ++ literal
  | string text => stringOnto written text
  | array items => itemsOnto (written ++ "[") true items ++ "]"
  | object members => membersOnto (written ++ "\x7b") true members ++ "\x7d"

/-- Adds the items of an array, with commas between them. -/
def itemsOnto (written : String) (first : Bool) : List Json → String
  | [] => written
  | item :: rest =>
      itemsOnto (writeOnto (if first then written else written ++ ",") item) false rest

/-- Adds the members of an object, with commas between them. -/
def membersOnto (written : String) (first : Bool) : List (Option String × Json) → String
  | [] => written
  | (key, item) :: rest =>
      let keyed := stringOnto (if first then written else written ++ ",") key ++ ":"
      membersOnto (writeOnto keyed item) false rest

end

def compact (document : Json) : String :=
  document.writeOnto ""

end Json

end Sexpr
