import Sexpr.Decimal.Layout
import Sexpr.Json.Forms
import Sexpr.Value.Basic

/-!
# Documents of values

A value is written as an object that says its kind and, but for the empty list,
its contents; a pair has its two halves in an array. A real that is finite is
written with the fewest digits that tell it from every other real, and one that
is not is written as null, which is no number when it is read.

In reading, the two members may come in either order, and members of other
names are passed over whatever they contain. Contents that come before their
kind have to be held until the kind is known, and so they must be readable as a
whole; the name of a kind within them may have an empty object behind it in
place of null.

An array of a kind and contents will do for the object. There a kind is its bare
word, with nothing behind it; in held contents it may also be its number, which
counts the kinds from zero.
-/

namespace Sexpr

def Json.ofReal (x : Float) : Json :=
  match Layout.document.finite? x with
  | some literal => number literal
  | none => null

namespace Value

/-- A kind with its contents. -/
def jsonOfKind (kind : Kind) (contents : Json) : Json :=
  .ofMembers [("kind", kind.toJson), ("value", contents)]

def toJson : Value → Json
  | int n => jsonOfKind .int (.ofInt n.toInt)
  | real x => jsonOfKind .real (.ofReal x)
  | symbol name => jsonOfKind .symbol (.ofText name)
  | pair car cdr => jsonOfKind .pair (.array [toJson car, toJson cdr])
  | empty => .ofMembers [("kind", Kind.empty.toJson)]

/-! ## Reading -/

/-- A member of an object that matters for a value. -/
inductive Member where
  | kind (name : Json)
  | contents (document : Json)

/-- The members of an object that matter for a value, in order. A key that is no
text cannot be told apart from them. -/
def relevantMembers : List (Option String × Json) → Option (List Member)
  | [] => some []
  | (none, _) :: _ => none
  | (some key, document) :: rest =>
      match relevantMembers rest with
      | none => none
      | some members =>
          if key = "kind" then some (.kind document :: members)
          else if key = "value" then some (.contents document :: members)
          else some members

/-- The kind a member of an object names. Behind its name there may be null,
which costs a level, and in a held document an empty object. -/
def kindOfJson? (held : Bool) (levels : Nat) : Json → Option Kind
  | .object [(some name, contents)] =>
      match contents with
      | .null => if 0 < levels || held then Kind.ofText? name else none
      | .object [] => if held then Kind.ofText? name else none
      | _ => none
  | document => Kind.ofJson? document

/-- The kind the first item of an array names: by its word, and in a held document
also by its number. -/
def kindOfItem? (held : Bool) : Json → Option Kind
  | .string word => word.bind Kind.ofText?
  | item => if held then item.count?.bind Kind.ofOrdinal? else none

/-- What a document says about a value: its kind, its contents if it has any,
and whether they have been held. -/
def parts? (held : Bool) (levels : Nat) : Json → Option (Kind × Option Json × Bool)
  | .array [kind, contents] =>
      (kindOfItem? held kind).map fun kind => (kind, some contents, held)
  | .object members =>
      match relevantMembers members with
      | some [.kind kind] =>
          (kindOfJson? held levels kind).map fun kind => (kind, none, held)
      | some [.kind kind, .contents contents] =>
          (kindOfJson? held levels kind).map fun kind => (kind, some contents, held)
      | some [.contents contents, .kind kind] =>
          if contents.isSound levels then
            (kindOfJson? held levels kind).map fun kind => (kind, some contents, true)
          else none
      | _ => none
  | _ => none

/-- The value of an atom of a kind. -/
def atomOfJson? : Kind → Option Json → Option Value
  | .int, some contents =>
      match contents.integer? with
      | some n =>
          if Int64.minValue.toInt ≤ n ∧ n ≤ Int64.maxValue.toInt then some (int (.ofInt n))
          else none
      | none => none
  | .real, some contents => contents.real?.map real
  | .symbol, some (.string text) => text.map symbol
  | .empty, none | .empty, some .null => some empty
  | _, _ => none

/-- The value a document is, with at most `levels` arrays and objects open at a
time. -/
def ofJsonWithin? (held : Bool) : Nat → Json → Option Value
  | 0, _ => none
  | levels + 1, document =>
      match parts? held levels document with
      | some (.pair, some (.array [car, cdr]), held) =>
          match levels with
          | 0 => none
          | levels + 1 =>
              match ofJsonWithin? held levels car, ofJsonWithin? held levels cdr with
              | some car, some cdr => some (pair car cdr)
              | _, _ => none
      | some (kind, contents, _) => atomOfJson? kind contents
      | none => none

def ofJson? (document : Json) : Option Value :=
  ofJsonWithin? false Json.greatestDepth document

def parseJson? (text : String) : Option Value :=
  (Json.parse? text).bind ofJson?

end Value

end Sexpr
