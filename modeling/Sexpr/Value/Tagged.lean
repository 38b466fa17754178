import Sexpr.Decimal.Layout
import Sexpr.Text.Quoted
import Sexpr.Value.Basic

/-!
# The tagged text of a value

The tagged text spells a value out by how it was built, so that different
values have different texts. Along a chain every pair opens a parenthesis that
is closed only at the end; the number of open ones is carried down the chain,
which is what lets a long list be written without a call for each of its pairs.
-/

namespace Sexpr

namespace Value

/-- Adds the tagged text of a value to a text, and closes so many parentheses
behind it. -/
def taggedOnto (text : String) (opened : Nat) : Value → String
  | int n => (text ++ s!"Int({n.toInt})").pushn ')' opened
  | real x => (text ++ "Real(" ++ Layout.tagged.write x ++ ")").pushn ')' opened
  | symbol name => (text ++ "Symbol(" ++ Text.quoted name ++ ")").pushn ')' opened
  | pair car cdr =>
      taggedOnto (taggedOnto (text ++ "Pair(") 0 car ++ ", ") (opened + 1) cdr
  | empty => (text ++ "Empty").pushn ')' opened

def tagged (value : Value) : String :=
  taggedOnto "" 0 value

end Value

end Sexpr
