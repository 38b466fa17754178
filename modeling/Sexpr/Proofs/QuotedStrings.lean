import Sexpr.Json.Compact
import Sexpr.Json.Reader

/-!
# Strings of documents

A string is escaped when it is written, and read back it is the string again. Each
character does so by itself: whatever it is written as, the reader goes on with that
one character more (`readString_escapedChar`). A string that is no text has no
characters that could be written; what is written for it reads back as no text.
-/

namespace Sexpr

namespace Json

/-! ## Digits to the base sixteen -/

theorem hexValue?_hexDigit {n : Nat} (h : n < 16) : hexValue? (hexDigit n) = some n := by
  revert n
  decide

theorem hexValue4?_hexDigit {n : Nat} (h : n < 256) :
    hexValue4? '0' '0' (hexDigit (n / 16)) (hexDigit (n % 16)) = some n := by
  have hzero : hexValue? '0' = some 0 := by decide
  rw [hexValue4?, hzero, hexValue?_hexDigit (by omega), hexValue?_hexDigit (by omega)]
  show some (((0 * 16 + 0) * 16 + n / 16) * 16 + n % 16) = some n
  congr 1
  omega

/-! ## Characters -/

/-- What has been read of a string as long as it was a text, the last character
first. -/
def Partial.ofChars (characters : List Char) : Partial :=
  ⟨characters, none, true⟩

theorem Partial.unit_ofChars (read : List Char) {c : Char} (h : c.toNat < 0x20) :
    (ofChars read).unit c.toNat = ofChars (c :: read) := by
  rw [unit, if_neg (by omega), if_neg (by omega), Char.ofNat_toNat]
  rfl

theorem readString_plain (read : List Char) {c : Char} (rest : List Char) (hquote : c ≠ '"')
    (hslash : c ≠ '\\') (hcontrol : ¬ c.toNat < 0x20) :
    readString (.ofChars read) (c :: rest) = readString (.ofChars (c :: read)) rest := by
  rw [readString]
  · rw [if_neg hcontrol]
    rfl
  · exact hquote
  · intro _ _ _ _ _ heq _
    exact hslash heq
  · intro _ _ heq _
    exact hslash heq

theorem readString_control (read : List Char) {c : Char} (rest : List Char) (h : c.toNat < 0x20) :
    readString (.ofChars read)
        ('\\' :: 'u' :: '0' :: '0' :: hexDigit (c.toNat / 16) :: hexDigit (c.toNat % 16) :: rest) =
      readString (.ofChars (c :: read)) rest := by
  rw [readString, hexValue4?_hexDigit (by omega)]
  show readString ((Partial.ofChars read).unit c.toNat) rest = _
  rw [Partial.unit_ofChars read h]

/-- A character that has been written is read, and nothing else is. -/
theorem readString_escapedChar (read : List Char) (c : Char) (rest : List Char) :
    readString (.ofChars read) ((escapedChar c).toList ++ rest) =
      readString (.ofChars (c :: read)) rest := by
  by_cases hescape : c ∈ ['"', '\\', '\x08', '\x0c', '\n', '\r', '\t']
  · simp only [List.mem_cons, List.not_mem_nil, or_false] at hescape
    rcases hescape with rfl | rfl | rfl | rfl | rfl | rfl | rfl <;> rfl
  · simp only [List.mem_cons, List.not_mem_nil, or_false, not_or] at hescape
    obtain ⟨hquote, hslash, hb, hf, hn, hr, ht⟩ := hescape
    simp only [escapedChar, hquote, hslash, hb, hf, hn, hr, ht, if_false]
    by_cases hcontrol : c.toNat < 0x20
    · rw [if_pos hcontrol]
      simpa using readString_control read rest hcontrol
    · rw [if_neg hcontrol]
      simpa using readString_plain read rest hquote hslash hcontrol

/-! ## Strings -/

/-- The characters of a string in quotation marks. -/
def stringSpelling : Option String → List Char
  | some text => '"' :: (text.toList.flatMap (fun c => (escapedChar c).toList) ++ ['"'])
  | none => ['"', '\\', 'u', 'd', '8', '0', '0', '"']

theorem toList_foldl_escaped (written : String) (characters : List Char) :
    (characters.foldl (fun written c => written ++ escapedChar c) written).toList =
      written.toList ++ characters.flatMap (fun c => (escapedChar c).toList) := by
  induction characters generalizing written with
  | nil => simp
  | cons c characters ih => simp [ih]

theorem toList_stringOnto (written : String) (text : Option String) :
    (stringOnto written text).toList = written.toList ++ stringSpelling text := by
  cases text with
  | none =>
      have hescape : "\"\\ud800\"".toList = stringSpelling none := by rfl
      rw [stringOnto, String.toList_append, hescape]
  | some text => simp [stringOnto, stringSpelling, toList_foldl_escaped]

theorem readString_flatMap (read characters rest : List Char) :
    readString (.ofChars read)
        (characters.flatMap (fun c => (escapedChar c).toList) ++ '"' :: rest) =
      some (some (String.ofList (read.reverse ++ characters)), rest) := by
  induction characters generalizing read with
  | nil =>
      rw [List.append_nil]
      rfl
  | cons c characters ih =>
      rw [List.flatMap_cons, List.append_assoc, readString_escapedChar, ih]
      simp

/-- A string that has been written reads back behind its first quotation mark. -/
theorem readString_stringSpelling (text : Option String) (rest : List Char) :
    ∃ inner, stringSpelling text ++ rest = '"' :: inner ∧
      readString .start inner = some (text, rest) := by
  cases text with
  | none => exact ⟨_, rfl, rfl⟩
  | some text =>
      have h := readString_flatMap [] text.toList rest
      rw [List.reverse_nil, List.nil_append, String.ofList_toList] at h
      exact ⟨_, by simp [stringSpelling], h⟩

end Json

end Sexpr
