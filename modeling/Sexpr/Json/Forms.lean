import Sexpr.Error
import Sexpr.Json.Reader

/-!
# Documents of names, numbers and arities

A constructor without fields is written as its name. In reading, an object whose
only key is the name, with null behind it, will do as well, since that is the
form in which a constructor with fields is written: its name, and the fields
behind it.
-/

namespace Sexpr

namespace Json

/-- The name of a constructor without fields. -/
def name? : Json → Option String
  | string text => text
  | object [(key, null)] => key
  | _ => none

def integer? : Json → Option Int
  | number literal =>
      match Numeral.ofLiteral? literal with
      | some numeral => numeral.integer?
      | none => none
  | _ => none

/-- The real a document is, if it is in range. -/
def real? : Json → Option Float
  | number literal =>
      match Numeral.ofLiteral? literal with
      | some numeral => numeral.real?
      | none => none
  | _ => none

/-- The natural number below a limit that a document is. -/
def natural? (limit : Nat) (document : Json) : Option Nat :=
  match document.integer? with
  | some (.ofNat n) => if n < limit then some n else none
  | _ => none

def count? : Json → Option Nat :=
  natural? UInt64.size

def boolean? : Json → Option Bool
  | boolean flag => some flag
  | _ => none

end Json

namespace Kind

def toJson (kind : Kind) : Json :=
  .ofText kind.text

def ofJson? (document : Json) : Option Kind :=
  document.name?.bind ofText?

end Kind

namespace Category

def toJson (category : Category) : Json :=
  .ofText category.text

def ofJson? (document : Json) : Option Category :=
  document.name?.bind ofText?

end Category

namespace ErrorCode

def toJson (code : ErrorCode) : Json :=
  .ofNat code.number.toNat

def ofJson? (document : Json) : Option ErrorCode :=
  (document.natural? UInt16.size).map fun n => ⟨n.toUInt16⟩

end ErrorCode

namespace Arity

def toJson : Arity → Json
  | exactly count => .ofMembers [("Exactly", .ofNat count)]
  | atLeast least => .ofMembers [("AtLeast", .ofNat least)]
  | range least most => .ofMembers [("Range", .array [.ofNat least, .ofNat most])]
  | any => .ofText "Any"

def ofJson? : Json → Option Arity
  | .object [(some "Exactly", count)] => count.count?.map exactly
  | .object [(some "AtLeast", least)] => least.count?.map atLeast
  | .object [(some "Range", .array [least, most])] =>
      match least.count?, most.count? with
      | some least, some most => some (range least most)
      | _, _ => none
  | other => if other.name? = some "Any" then some any else none

end Arity

end Sexpr
