import Sexpr.Json.Basic
import Sexpr.Json.Numeral

/-!
# Reading documents

Reading is strict: blanks are allowed between the parts of a document and
around it, and nothing else may stand there. There is no limit on how deeply
arrays and objects are nested here; that is a condition on what is read from a
document, and so is a number out of range.

The fuel of `readValue` pays for two calls for each character that is read: a
value is read by a call of its own, and so is what follows it in its array or
object. A text pays for itself in this way, so `parse?` shows no fuel.
-/

namespace Sexpr

namespace Json

def isBlank (c : Char) : Bool :=
  c = ' ' || c = '\n' || c = '\r' || c = '\t'

/-- What stands behind the blanks. -/
def skipBlanks (input : List Char) : List Char :=
  input.dropWhile isBlank

/-! ## Strings -/

def hexValue? (c : Char) : Option Nat :=
  if '0' ≤ c ∧ c ≤ '9' then some (c.toNat - '0'.toNat)
  else if 'a' ≤ c ∧ c ≤ 'f' then some (c.toNat - 'a'.toNat + 10)
  else if 'A' ≤ c ∧ c ≤ 'F' then some (c.toNat - 'A'.toNat + 10)
  else none

/-- The value of four digits to the base sixteen. -/
def hexValue4? (a b c d : Char) : Option Nat := do
  let a ← hexValue? a
  let b ← hexValue? b
  let c ← hexValue? c
  let d ← hexValue? d
  return ((a * 16 + b) * 16 + c) * 16 + d

/-- The character a letter stands for behind a backslash. -/
def unescape? : Char → Option Char
  | '"' => some '"'
  | '\\' => some '\\'
  | '/' => some '/'
  | 'b' => some '\x08'
  | 'f' => some '\x0c'
  | 'n' => some '\n'
  | 'r' => some '\r'
  | 't' => some '\t'
  | _ => none

/-- What has been read of a string: its characters, the last one first, the
first half of a surrogate pair that still waits for the second one, and whether
all halves so far were paired. -/
structure Partial where
  characters : List Char
  waiting : Option Nat
  whole : Bool

namespace Partial

def start : Partial := ⟨[], none, true⟩

/-- Goes on with a character. A half that was waiting stays alone. -/
def character (read : Partial) (c : Char) : Partial :=
  ⟨c :: read.characters, none, read.whole && read.waiting.isNone⟩

/-- Goes on with a 16-bit unit. -/
def unit (read : Partial) (n : Nat) : Partial :=
  if 0xdc00 ≤ n ∧ n < 0xe000 then
    match read.waiting with
    | some high =>
        let code := 0x10000 + (high - 0xd800) * 0x400 + (n - 0xdc00)
        ⟨Char.ofNat code :: read.characters, none, read.whole⟩
    | none => ⟨read.characters, none, false⟩
  else if 0xd800 ≤ n ∧ n < 0xdc00 then
    ⟨read.characters, some n, read.whole && read.waiting.isNone⟩
  else read.character (Char.ofNat n)

/-- The string, if it is a text. -/
def finish (read : Partial) : Option String :=
  if read.whole && read.waiting.isNone then some (String.ofList read.characters.reverse)
  else none

end Partial

/-- Reads a string behind its first quotation mark. -/
def readString (read : Partial) : List Char → Option (Option String × List Char)
  | '"' :: rest => some (read.finish, rest)
  | '\\' :: 'u' :: a :: b :: c :: d :: rest =>
      match hexValue4? a b c d with
      | some n => readString (read.unit n) rest
      | none => none
  | '\\' :: c :: rest =>
      match unescape? c with
      | some c => readString (read.character c) rest
      | none => none
  | c :: rest => if c.toNat < 0x20 then none else readString (read.character c) rest
  | [] => none

/-! ## Values -/

mutual

/-- Reads a value, with blanks before it. -/
def readValue : Nat → List Char → Option (Json × List Char)
  | 0, _ => none
  | fuel + 1, input =>
      match skipBlanks input with
      | 'n' :: 'u' :: 'l' :: 'l' :: rest => some (null, rest)
      | 't' :: 'r' :: 'u' :: 'e' :: rest => some (boolean true, rest)
      | 'f' :: 'a' :: 'l' :: 's' :: 'e' :: rest => some (boolean false, rest)
      | '"' :: rest =>
          match readString .start rest with
          | some (text, rest) => some (string text, rest)
          | none => none
      | '[' :: rest =>
          match skipBlanks rest with
          | ']' :: rest => some (array [], rest)
          | rest => readItems fuel [] rest
      | '\x7b' :: rest =>
          match skipBlanks rest with
          | '\x7d' :: rest => some (object [], rest)
          | rest => readMembers fuel [] rest
      | input =>
          let literal := String.ofList (input.takeWhile Numeral.isPart)
          if (Numeral.ofLiteral? literal).isSome then
            some (number literal, input.dropWhile Numeral.isPart)
          else none

/-- Reads the items of an array up to its end, behind those in `read`, which
holds the last one first. -/
def readItems : Nat → List Json → List Char → Option (Json × List Char)
  | 0, _, _ => none
  | fuel + 1, read, input =>
      match readValue fuel input with
      | none => none
      | some (item, rest) =>
          match skipBlanks rest with
          | ',' :: rest => readItems fuel (item :: read) rest
          | ']' :: rest => some (array (item :: read).reverse, rest)
          | _ => none

/-- Reads the members of an object up to its end, behind those in `read`, which
holds the last one first. -/
def readMembers : Nat → List (Option String × Json) → List Char → Option (Json × List Char)
  | 0, _, _ => none
  | fuel + 1, read, input =>
      match skipBlanks input with
      | '"' :: rest =>
          match readString .start rest with
          | none => none
          | some (key, rest) =>
              match skipBlanks rest with
              | ':' :: rest =>
                  match readValue fuel rest with
                  | none => none
                  | some (item, rest) =>
                      match skipBlanks rest with
                      | ',' :: rest => readMembers fuel ((key, item) :: read) rest
                      | '\x7d' :: rest => some (object ((key, item) :: read).reverse, rest)
                      | _ => none
              | _ => none
      | _ => none

end

def parse? (text : String) : Option Json :=
  let input := text.toList
  match readValue (2 * input.length + 2) input with
  | some (document, rest) => if (skipBlanks rest).isEmpty then some document else none
  | none => none

/-! ## Documents that can be read as a whole -/

mutual

/-- Whether a document can be read as a whole: all its strings are texts, all
its numbers are in range, and it opens at most `levels` arrays and objects at a
time. -/
def isSound (levels : Nat) : Json → Bool
  | null | boolean _ => true
  | number literal =>
      match Numeral.ofLiteral? literal with
      | some numeral => numeral.real?.isSome
      | none => false
  | string text => text.isSome
  | array items => decide (0 < levels) && areSoundItems (levels - 1) items
  | object members => decide (0 < levels) && areSoundMembers (levels - 1) members

/-- Whether all items can be read as a whole. -/
def areSoundItems (levels : Nat) : List Json → Bool
  | [] => true
  | item :: rest => isSound levels item && areSoundItems levels rest

/-- Whether all members can be read as a whole. -/
def areSoundMembers (levels : Nat) : List (Option String × Json) → Bool
  | [] => true
  | (key, item) :: rest => key.isSome && isSound levels item && areSoundMembers levels rest

end

/-- The number of arrays and objects that may be open at a time. -/
def greatestDepth : Nat := 127

end Json

end Sexpr
