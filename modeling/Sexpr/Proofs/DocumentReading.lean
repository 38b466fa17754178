import Mathlib.Data.List.TakeWhile
import Sexpr.Proofs.IntegerText
import Sexpr.Proofs.QuotedStrings

/-!
# Documents read back

A document that has been written reads back as itself, if its numbers are numerals
(`parse?_compact`). Nothing else can go wrong: blanks may stand between the parts of a
document but none are written, and what a string contains is escaped.

A number alone does not say where it ends. It reaches as far as there are characters
for it, so what stands behind a document must not begin with one of them (`Ends`). A
comma, a colon and the ends of arrays and objects do not. The fuel is no concern
either. Reading takes at most two calls for each character, and there is fuel for as
many.
-/

namespace Sexpr

namespace Json

/-! ## Documents as characters -/

mutual

/-- The characters of a document. -/
def spelling : Json → List Char
  | null => ['n', 'u', 'l', 'l']
  | boolean flag => if flag then ['t', 'r', 'u', 'e'] else ['f', 'a', 'l', 's', 'e']
  | number literal => literal.toList
  | string text => stringSpelling text
  | array items => '[' :: itemsSpelling true items
  | object members => '\x7b' :: membersSpelling true members

/-- The characters of the items of an array, up to its end. -/
def itemsSpelling (first : Bool) : List Json → List Char
  | [] => [']']
  | item :: rest => (if first then [] else [',']) ++ (item.spelling ++ itemsSpelling false rest)

/-- The characters of the members of an object, up to its end. -/
def membersSpelling (first : Bool) : List (Option String × Json) → List Char
  | [] => ['\x7d']
  | (key, item) :: rest =>
      (if first then [] else [',']) ++
        (stringSpelling key ++ ':' :: (item.spelling ++ membersSpelling false rest))

end

mutual

theorem toList_writeOnto (written : String) (document : Json) :
    (writeOnto written document).toList = written.toList ++ document.spelling := by
  match document with
  | null | number _ => simp [writeOnto, spelling]
  | boolean flag => cases flag <;> simp [writeOnto, spelling]
  | string text => rw [writeOnto, spelling, toList_stringOnto]
  | array items =>
      rw [writeOnto, toList_itemsOnto, spelling]
      simp
  | object members =>
      rw [writeOnto, toList_membersOnto, spelling]
      simp

theorem toList_itemsOnto (written : String) (first : Bool) (items : List Json) :
    (itemsOnto written first items ++ "]").toList =
      written.toList ++ itemsSpelling first items := by
  match items with
  | [] => simp [itemsOnto, itemsSpelling]
  | item :: rest =>
      rw [itemsOnto, toList_itemsOnto, toList_writeOnto, itemsSpelling]
      cases first <;> simp

theorem toList_membersOnto (written : String) (first : Bool)
    (members : List (Option String × Json)) :
    (membersOnto written first members ++ "\x7d").toList =
      written.toList ++ membersSpelling first members := by
  match members with
  | [] => simp [membersOnto, membersSpelling]
  | (key, item) :: rest =>
      rw [membersOnto, toList_membersOnto, toList_writeOnto, membersSpelling]
      cases first <;> simp [toList_stringOnto]

end

theorem toList_compact (document : Json) : document.compact.toList = document.spelling := by
  rw [compact, toList_writeOnto]
  rfl

/-! ## Documents that read back -/

mutual

/-- All numbers of a document are numerals. -/
def Readable : Json → Prop
  | number literal => (Numeral.ofLiteral? literal).isSome = true ∧
      ∀ c ∈ literal.toList, Numeral.isPart c = true
  | array items => ReadableItems items
  | object members => ReadableMembers members
  | null | boolean _ | string _ => True

def ReadableItems : List Json → Prop
  | [] => True
  | item :: rest => item.Readable ∧ ReadableItems rest

def ReadableMembers : List (Option String × Json) → Prop
  | [] => True
  | (_, item) :: rest => item.Readable ∧ ReadableMembers rest

end

theorem readable_ofInt (n : Int) : (ofInt n).Readable := by
  refine ⟨?_, fun c hc => ?_⟩
  · rw [Numeral.ofLiteral?_toString]
    rfl
  · rcases mem_toString_int hc with rfl | hdigit
    · rfl
    · simp [Numeral.isPart, hdigit]

/-- A text in front of which a number comes to an end. -/
def Ends (rest : List Char) : Prop :=
  rest.takeWhile Numeral.isPart = []

theorem ends_itemsSpelling (items : List Json) (rest : List Char) :
    Ends (itemsSpelling false items ++ rest) := by
  cases items <;> rfl

theorem ends_membersSpelling (members : List (Option String × Json)) (rest : List Char) :
    Ends (membersSpelling false members ++ rest) := by
  cases members <;> rfl

theorem skipBlanks_cons {c : Char} (h : isBlank c = false) (rest : List Char) :
    skipBlanks (c :: rest) = c :: rest :=
  List.dropWhile_cons_of_neg (by simp [h])

/-- A numeral is not empty. -/
theorem exists_cons_of_numeral {literal : String}
    (h : (Numeral.ofLiteral? literal).isSome = true) : ∃ c inner, literal.toList = c :: inner := by
  cases hliteral : literal.toList with
  | nil =>
      rw [Numeral.ofLiteral?, hliteral] at h
      cases h
  | cons c inner => exact ⟨c, inner, rfl⟩

theorem ne_of_isPart {c mark : Char} (h : Numeral.isPart c = true)
    (hmark : Numeral.isPart mark = false) : c ≠ mark := by
  rintro rfl
  rw [hmark] at h
  cases h

theorem isBlank_of_isPart {c : Char} (h : Numeral.isPart c = true) : isBlank c = false := by
  have hne : ∀ mark, Numeral.isPart mark = false → c ≠ mark := fun mark => ne_of_isPart h
  simp [isBlank, hne ' ' rfl, hne '\n' rfl, hne '\r' rfl, hne '\t' rfl]

/-- A document begins with a character of its own, and not with one that ends an array. -/
theorem exists_cons_of_readable {document : Json} (h : document.Readable) :
    ∃ c inner, document.spelling = c :: inner ∧ isBlank c = false ∧ c ≠ ']' := by
  match document, h with
  | number literal, ⟨hnumeral, hparts⟩ =>
      obtain ⟨c, inner, hliteral⟩ := exists_cons_of_numeral hnumeral
      have hc := hparts c (by simp [hliteral])
      exact ⟨c, inner, hliteral, isBlank_of_isPart hc, ne_of_isPart hc rfl⟩
  | null, _ | array _, _ | object _, _ => exact ⟨_, _, rfl, rfl, by decide⟩
  | boolean flag, _ => cases flag <;> exact ⟨_, _, rfl, rfl, by decide⟩
  | string text, _ => cases text <;> exact ⟨_, _, rfl, rfl, by decide⟩

theorem readValue_number {literal : String} (h : (number literal).Readable) (fuel : Nat)
    {rest : List Char} (hrest : Ends rest) :
    readValue (fuel + 1) (literal.toList ++ rest) = some (number literal, rest) := by
  obtain ⟨hnumeral, hparts⟩ := h
  obtain ⟨c, inner, hliteral⟩ := exists_cons_of_numeral hnumeral
  have hc := hparts c (by simp [hliteral])
  have htake : (literal.toList ++ rest).takeWhile Numeral.isPart = literal.toList := by
    rw [List.takeWhile_append_of_pos hparts, hrest, List.append_nil]
  have hdrop : (literal.toList ++ rest).dropWhile Numeral.isPart = rest := by
    have h := List.takeWhile_append_dropWhile (p := Numeral.isPart) (l := literal.toList ++ rest)
    rw [htake] at h
    exact List.append_cancel_left h
  have hskip : skipBlanks (literal.toList ++ rest) = literal.toList ++ rest := by
    rw [hliteral]
    exact skipBlanks_cons (isBlank_of_isPart hc) _
  have hne : ∀ {mark : Char} {other : List Char}, Numeral.isPart mark = false →
      literal.toList ++ rest ≠ mark :: other := by
    intro mark other hmark heq
    rw [hliteral] at heq
    exact ne_of_isPart hc hmark (List.cons.inj heq).1
  rw [readValue, hskip]
  split
  case h_7 => simp only [htake, hdrop, String.ofList_toList, hnumeral, if_true]
  all_goals exact absurd ‹literal.toList ++ rest = _› (hne rfl)

/-! ## Reading step by step -/

section

variable {fuel : Nat} {rest : List Char}

theorem readValue_array {c : Char} (hblank : isBlank c = false) (hc : c ≠ ']') :
    readValue (fuel + 1) ('[' :: c :: rest) = readItems fuel [] (c :: rest) := by
  rw [readValue, skipBlanks_cons rfl]
  simp only [skipBlanks_cons hblank]
  split
  · next heq => exact absurd (List.cons.inj heq).1 hc
  · rfl

theorem readItems_more {read : List Json} {item : Json} {input : List Char}
    (h : readValue fuel input = some (item, ',' :: rest)) :
    readItems (fuel + 1) read input = readItems fuel (item :: read) rest := by
  rw [readItems, h]
  rfl

theorem readItems_last {read : List Json} {item : Json} {input : List Char}
    (h : readValue fuel input = some (item, ']' :: rest)) :
    readItems (fuel + 1) read input = some (array (item :: read).reverse, rest) := by
  rw [readItems, h]
  rfl

theorem readValue_object :
    readValue (fuel + 1) ('\x7b' :: '"' :: rest) = readMembers fuel [] ('"' :: rest) := by
  rw [readValue, skipBlanks_cons rfl]
  rfl

variable {read : List (Option String × Json)} {key : Option String} {item : Json}
  {inner text : List Char}

theorem readMembers_more (hkey : readString .start inner = some (key, ':' :: text))
    (hitem : readValue fuel text = some (item, ',' :: rest)) :
    readMembers (fuel + 1) read ('"' :: inner) = readMembers fuel ((key, item) :: read) rest := by
  rw [readMembers, skipBlanks_cons rfl]
  simp only [hkey]
  rw [skipBlanks_cons rfl]
  simp only [hitem]
  rfl

theorem readMembers_last (hkey : readString .start inner = some (key, ':' :: text))
    (hitem : readValue fuel text = some (item, '\x7d' :: rest)) :
    readMembers (fuel + 1) read ('"' :: inner) =
      some (object ((key, item) :: read).reverse, rest) := by
  rw [readMembers, skipBlanks_cons rfl]
  simp only [hkey]
  rw [skipBlanks_cons rfl]
  simp only [hitem]
  rfl

end

/-! ## Reading -/

/-- With this fuel documents read back as they were written, as far as it pays for
their characters, and so do the items of an array and the members of an object. -/
structure ReadsBack (fuel : Nat) : Prop where
  value : ∀ (document : Json) (rest : List Char), document.Readable → Ends rest →
    2 * document.spelling.length ≤ fuel →
    readValue fuel (document.spelling ++ rest) = some (document, rest)
  items : ∀ (item : Json) (items read : List Json) (rest : List Char),
    ReadableItems (item :: items) → 2 * (itemsSpelling true (item :: items)).length ≤ fuel →
    readItems fuel read (itemsSpelling true (item :: items) ++ rest) =
      some (array (read.reverse ++ item :: items), rest)
  members : ∀ (member : Option String × Json) (members read : List (Option String × Json))
    (rest : List Char), ReadableMembers (member :: members) →
    2 * (membersSpelling true (member :: members)).length ≤ fuel →
    readMembers fuel read (membersSpelling true (member :: members) ++ rest) =
      some (object (read.reverse ++ member :: members), rest)

theorem itemsSpelling_cons (item : Json) (items : List Json) :
    itemsSpelling true (item :: items) = item.spelling ++ itemsSpelling false items := by
  simp [itemsSpelling]

theorem itemsSpelling_next (item : Json) (items : List Json) :
    itemsSpelling false (item :: items) = ',' :: itemsSpelling true (item :: items) := by
  simp [itemsSpelling]

theorem membersSpelling_cons (key : Option String) (item : Json)
    (members : List (Option String × Json)) :
    membersSpelling true ((key, item) :: members) =
      stringSpelling key ++ ':' :: (item.spelling ++ membersSpelling false members) := by
  simp [membersSpelling]

theorem membersSpelling_next (member : Option String × Json)
    (members : List (Option String × Json)) :
    membersSpelling false (member :: members) =
      ',' :: membersSpelling true (member :: members) := by
  simp [membersSpelling]

theorem length_itemsSpelling_pos (items : List Json) : 0 < (itemsSpelling false items).length := by
  cases items <;> simp [itemsSpelling]

theorem length_membersSpelling_pos (members : List (Option String × Json)) :
    0 < (membersSpelling false members).length := by
  cases members <;> simp [membersSpelling]

namespace ReadsBack

theorem zero : ReadsBack 0 where
  value document rest h _ hfuel := by
    obtain ⟨c, inner, hdocument, -⟩ := exists_cons_of_readable h
    simp [hdocument] at hfuel
  items item items _ _ _ hfuel := by
    have := length_itemsSpelling_pos items
    rw [itemsSpelling_cons, List.length_append] at hfuel
    omega
  members member members _ _ _ hfuel := by
    have := length_membersSpelling_pos members
    rw [membersSpelling_cons, List.length_append, List.length_cons] at hfuel
    omega

variable {fuel : Nat}

theorem value_succ (ih : ReadsBack fuel) {document : Json} {rest : List Char}
    (h : document.Readable) (hrest : Ends rest) (hfuel : 2 * document.spelling.length ≤ fuel + 1) :
    readValue (fuel + 1) (document.spelling ++ rest) = some (document, rest) := by
  match document with
  | null => rfl
  | boolean flag => cases flag <;> rfl
  | number literal => exact readValue_number h fuel hrest
  | string text =>
      obtain ⟨inner, htext, hread⟩ := readString_stringSpelling text rest
      rw [spelling, htext, readValue, skipBlanks_cons rfl]
      simp only [hread]
  | array [] => rfl
  | array (item :: items) =>
      rw [spelling, List.length_cons] at hfuel
      obtain ⟨c, inner, hitem, hblank, hc⟩ := exists_cons_of_readable h.1
      have hfirst : itemsSpelling true (item :: items) ++ rest =
          c :: (inner ++ (itemsSpelling false items ++ rest)) := by
        simp [itemsSpelling, hitem]
      rw [spelling, List.cons_append, hfirst, readValue_array hblank hc, ← hfirst]
      exact ih.items item items [] rest h (by omega)
  | object [] => rfl
  | object ((key, item) :: members) =>
      rw [spelling, List.length_cons] at hfuel
      obtain ⟨inner, hkey, -⟩ := readString_stringSpelling key
        (':' :: (item.spelling ++ (membersSpelling false members ++ rest)))
      have hfirst : membersSpelling true ((key, item) :: members) ++ rest = '"' :: inner := by
        simpa [membersSpelling] using hkey
      rw [spelling, List.cons_append, hfirst, readValue_object, ← hfirst]
      exact ih.members (key, item) members [] rest h (by omega)

theorem items_succ (ih : ReadsBack fuel) {item : Json} {items read : List Json} {rest : List Char}
    (h : ReadableItems (item :: items))
    (hfuel : 2 * (itemsSpelling true (item :: items)).length ≤ fuel + 1) :
    readItems (fuel + 1) read (itemsSpelling true (item :: items) ++ rest) =
      some (array (read.reverse ++ item :: items), rest) := by
  have := length_itemsSpelling_pos items
  rw [itemsSpelling_cons, List.length_append] at hfuel
  have hitem := ih.value item _ h.1 (ends_itemsSpelling items rest) (by omega)
  rw [itemsSpelling_cons, List.append_assoc]
  cases items with
  | nil =>
      rw [readItems_last hitem]
      simp
  | cons next items =>
      rw [itemsSpelling_next, List.length_cons] at hfuel
      rw [itemsSpelling_next, List.cons_append] at hitem ⊢
      rw [readItems_more hitem, ih.items next items (item :: read) rest h.2 (by omega)]
      simp

theorem members_succ (ih : ReadsBack fuel) {member : Option String × Json}
    {members read : List (Option String × Json)} {rest : List Char}
    (h : ReadableMembers (member :: members))
    (hfuel : 2 * (membersSpelling true (member :: members)).length ≤ fuel + 1) :
    readMembers (fuel + 1) read (membersSpelling true (member :: members) ++ rest) =
      some (object (read.reverse ++ member :: members), rest) := by
  obtain ⟨key, item⟩ := member
  have := length_membersSpelling_pos members
  rw [membersSpelling_cons, List.length_append, List.length_cons, List.length_append] at hfuel
  have hitem := ih.value item _ h.1 (ends_membersSpelling members rest) (by omega)
  obtain ⟨inner, hinner, hkey⟩ := readString_stringSpelling key
    (':' :: (item.spelling ++ (membersSpelling false members ++ rest)))
  rw [membersSpelling_cons, List.append_assoc, List.cons_append, List.append_assoc, hinner]
  cases members with
  | nil =>
      rw [readMembers_last hkey hitem]
      simp
  | cons next members =>
      rw [membersSpelling_next, List.length_cons] at hfuel
      rw [membersSpelling_next, List.cons_append] at hitem
      rw [readMembers_more hkey hitem, ih.members next members ((key, item) :: read) rest h.2
        (by omega)]
      simp

/-- The induction is on the fuel, since every call has less of it. -/
theorem all (fuel : Nat) : ReadsBack fuel := by
  induction fuel with
  | zero => exact zero
  | succ fuel ih =>
      exact ⟨fun _ _ => ih.value_succ, fun _ _ _ _ => ih.items_succ, fun _ _ _ _ => ih.members_succ⟩

end ReadsBack

/-- What has been written of a document is read as that document. -/
theorem parse?_compact {document : Json} (h : document.Readable) :
    parse? document.compact = some document := by
  have hread := (ReadsBack.all (2 * document.spelling.length + 2)).value document [] h rfl
    (by omega)
  rw [List.append_nil] at hread
  simp only [parse?, toList_compact, hread]
  rfl

end Json

end Sexpr
