/-!
# Documents

A document is kept as it was written: a number as its literal, the members of
an object in order and with their repetitions. What a number is worth and what
a repeated key means is for the reader of a particular form to say, since one
form refuses what another one passes over.

A string may contain an escape for half of a surrogate pair. Such a string is
no text; it is kept as `none`, so that it can be passed over but not read.
-/

namespace Sexpr

/-- A JSON document. -/
inductive Json where
  | null
  | boolean (flag : Bool)
  | number (literal : String)
  | string (text : Option String)
  | array (items : List Json)
  | object (members : List (Option String × Json))
deriving Inhabited

namespace Json

def ofText (text : String) : Json :=
  string (some text)

def ofNat (n : Nat) : Json :=
  number (toString n)

def ofInt (n : Int) : Json :=
  number (toString n)

/-- An object with so many members. -/
def ofMembers (members : List (String × Json)) : Json :=
  object (members.map fun member => (some member.1, member.2))

end Json

end Sexpr
