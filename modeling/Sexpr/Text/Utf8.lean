/-!
# Reading bytes as text

Bytes that are no UTF-8 text are still read, with the replacement character
wherever a character cannot be made out. One replacement stands for the longest
run of bytes that begins a character and does not finish it, or for one byte
that begins none; so a text that was cut in the middle of a character loses
that character only.

The first byte of a character says how many bytes follow, and how the range of
the second one is narrowed: overlong forms, surrogates and code points past the
last one are ruled out there.
-/

namespace Sexpr.Text

/-- What stands for bytes that are no character. -/
def replacement : Char := '\ufffd'

/-- What a first byte announces: the bits it carries, how many bytes follow,
and the range of the first of them. -/
structure Lead where
  bits : Nat
  following : Nat
  least : Nat
  most : Nat

/-- The announcement of a first byte that begins a longer character. -/
def lead? (byte : Nat) : Option Lead :=
  if byte < 0xc2 then none
  else if byte < 0xe0 then some ⟨byte - 0xc0, 1, 0x80, 0xbf⟩
  else if byte = 0xe0 then some ⟨0, 2, 0xa0, 0xbf⟩
  else if byte = 0xed then some ⟨0xd, 2, 0x80, 0x9f⟩
  else if byte < 0xf0 then some ⟨byte - 0xe0, 2, 0x80, 0xbf⟩
  else if byte = 0xf0 then some ⟨0, 3, 0x90, 0xbf⟩
  else if byte < 0xf4 then some ⟨byte - 0xf0, 3, 0x80, 0xbf⟩
  else if byte = 0xf4 then some ⟨4, 3, 0x80, 0x8f⟩
  else none

/-- Reads on inside a character, whose bits so far are `bits`; between
characters `pending` is `none`. What is read goes in front of `read`. -/
def decodeOnto (read : List Char) (pending : Option Lead) : List UInt8 → List Char
  | [] => (if pending.isSome then replacement :: read else read).reverse
  | byte :: rest =>
      let b := byte.toNat
      let begin (read : List Char) : List Char :=
        if b < 0x80 then decodeOnto (Char.ofNat b :: read) none rest
        else
          match lead? b with
          | some lead => decodeOnto read (some lead) rest
          | none => decodeOnto (replacement :: read) none rest
      match pending with
      | none => begin read
      | some lead =>
          if lead.least ≤ b ∧ b ≤ lead.most then
            let bits := lead.bits * 64 + (b - 0x80)
            if lead.following = 1 then decodeOnto (Char.ofNat bits :: read) none rest
            else decodeOnto read (some ⟨bits, lead.following - 1, 0x80, 0xbf⟩) rest
          else begin (replacement :: read)

/-- Bytes as text. What is UTF-8 throughout is read as it is. -/
def decode (bytes : ByteArray) : String :=
  match String.fromUTF8? bytes with
  | some text => text
  | none => String.ofList (decodeOnto [] none bytes.toList)

theorem decode_toUTF8 (text : String) : decode text.toUTF8 = text := by
  have hread : String.fromUTF8? text.toUTF8 = some text := by
    rw [String.fromUTF8?, dif_pos (show text.toUTF8.IsValidUTF8 from text.isValidUTF8)]
    rfl
  rw [decode, hread]

end Sexpr.Text
