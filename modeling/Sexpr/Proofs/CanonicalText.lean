import Sexpr.Proofs.IntegerText
import Sexpr.Proofs.Streaming

/-!
# The canonical text tells values apart

Nothing in this library reads the canonical text, but it is written for somebody
who does. So two values must not have one text. They may have one if a symbol is
let look like something else: a name may be empty, or contain a space or a
parenthesis, or be the digits of an integer. Without such names (`Legible`) the
text of a value can be told from whatever stands behind it, as long as that
begins where a list goes on or ends (`Continues`), and it belongs to no other
value (`spelling_append_inj`).

The argument follows the text character by character, so it needs the list of
them. That list is `spelling`. It is what is written of a well-formed value
(`toList_streamed`), and says nothing of values that have no canonical text.
-/

namespace Sexpr

namespace Value

/-! ## The text as a function -/

mutual

/-- The characters of the canonical text of a well-formed value. -/
def spelling : Value → List Char
  | pair car cdr => '(' :: (car.spelling ++ cdr.spellingRest)
  | atom => atom.atomText.toList

/-- The characters of what comes after the first element of a list. -/
def spellingRest : Value → List Char
  | pair car cdr => ' ' :: (car.spelling ++ cdr.spellingRest)
  | _ => [')']

end

/-- Of a well-formed value all is written. -/
theorem toList_streamed (value : Value) :
    (value.WellFormed → value.streamed.toList = value.spelling) ∧
    (value.isList = true → value.WellFormed → value.streamedRest.toList = value.spellingRest) := by
  induction value with
  | int | real | symbol => exact ⟨fun _ => rfl, fun hlist => absurd hlist Bool.false_ne_true⟩
  | empty => exact ⟨fun _ => rfl, fun _ _ => rfl⟩
  | pair car cdr ihcar ihcdr =>
      have hboth : (pair car cdr).WellFormed →
          (car.streamed ++ if car.WellFormed then cdr.streamedRest else "").toList =
            car.spelling ++ cdr.spellingRest := by
        intro hwell
        obtain ⟨hcar, hlist, hcdr⟩ := hwell
        rw [if_pos hcar, String.toList_append, ihcar.1 hcar, ihcdr.2 hlist hcdr]
      refine ⟨fun hwell => ?_, fun _ hwell => ?_⟩
      · rw [streamed, String.toList_append, hboth hwell]
        rfl
      · rw [streamedRest, String.toList_append, hboth hwell]
        rfl

theorem render_eq_ok_iff {value : Value} {text : String} :
    value.render = .ok text ↔ value.WellFormed ∧ text.toList = value.spelling := by
  rw [render_eq]
  by_cases hwell : value.WellFormed
  · rw [if_pos hwell, ← value.toList_streamed.1 hwell, String.toList_inj, Except.ok.injEq]
    exact ⟨fun h => ⟨hwell, h.symm⟩, fun h => h.2.symm⟩
  · rw [if_neg hwell]
    exact ⟨nofun, fun h => absurd h.1 hwell⟩

/-! ## Words -/

/-- What a reader can go by: there are no reals, and the name of every symbol is a
word that is not the digits of an integer. -/
def Legible : Value → Prop
  | symbol name => name ≠ "" ∧ (∀ c ∈ name.toList, c ≠ ' ' ∧ c ≠ '(' ∧ c ≠ ')') ∧
      ∀ n : Int64, name ≠ toString n.toInt
  | pair car cdr => car.Legible ∧ cdr.Legible
  | int _ | empty => True
  | real _ => False

/-- A character that may be part of a word. -/
def isWord (c : Char) : Bool :=
  c != ' ' && c != '(' && c != ')'

/-- A text that may stand behind an element of a list: where it begins, a word has
ended. -/
def Continues (rest : List Char) : Prop :=
  rest.takeWhile isWord = []

theorem continues_spellingRest (value : Value) (rest : List Char) :
    Continues (value.spellingRest ++ rest) := by
  cases value <;> rfl

theorem isWord_of_mem_toString {c : Char} {n : Int} (h : c ∈ (toString n).toList) :
    isWord c = true := by
  rcases mem_toString_int h with rfl | hdigit
  · rfl
  · have hne : ∀ mark : Char, mark.isDigit = false → c ≠ mark := by
      rintro mark hmark rfl
      rw [hmark] at hdigit
      cases hdigit
    simp [isWord, hne ' ' rfl, hne '(' rfl, hne ')' rfl]

/-- The text of a number or a symbol is a word. -/
theorem word_of_legible {value : Value} (h : value.Legible) (hatom : value.isList = false) :
    value.atomText.toList ≠ [] ∧ ∀ c ∈ value.atomText.toList, isWord c = true := by
  cases value with
  | int n => exact ⟨toString_int_ne_nil n.toInt, fun c => isWord_of_mem_toString⟩
  | symbol name =>
      refine ⟨fun hempty => h.1 (String.toList_inj.1 hempty), fun c hc => ?_⟩
      simpa [isWord, and_assoc] using h.2.1 c hc
  | real => exact h.elim
  | pair | empty => cases hatom

/-- It is a different word for each of them. -/
theorem eq_of_atomText_eq {v w : Value} (hv : v.Legible) (hw : w.Legible)
    (hatom : v.isList = false) (hatom' : w.isList = false) (h : v.atomText = w.atomText) :
    v = w := by
  cases v with
  | int m =>
      cases w with
      | int n => rw [Int64.toInt_inj.1 (toString_int_inj h)]
      | symbol name => exact absurd h.symm (hw.2.2 m)
      | real => exact hw.elim
      | pair | empty => cases hatom'
  | symbol name =>
      cases w with
      | int n => exact absurd h (hv.2.2 n)
      | symbol other => exact congrArg symbol h
      | real => exact hw.elim
      | pair | empty => cases hatom'
  | real => exact hv.elim
  | pair | empty => cases hatom

/-! ## Unique reading -/

theorem spelling_of_atom {value : Value} (h : value.isList = false) :
    value.spelling = value.atomText.toList := by
  cases value with
  | int | real | symbol => rfl
  | pair | empty => cases h

theorem spelling_of_list {value : Value} (h : value.isList = true) :
    ∃ inner, value.spelling = '(' :: inner := by
  cases value with
  | pair | empty => exact ⟨_, rfl⟩
  | int | real | symbol => cases h

theorem takeWhile_spelling_append {value : Value} {rest : List Char} (h : value.Legible)
    (hrest : Continues rest) :
    (value.spelling ++ rest).takeWhile isWord =
      if value.isList then [] else value.atomText.toList := by
  cases hlist : value.isList with
  | true =>
      obtain ⟨inner, hinner⟩ := spelling_of_list hlist
      rw [hinner]
      rfl
  | false =>
      rw [spelling_of_atom hlist, List.takeWhile_append_of_pos (word_of_legible h hlist).2, hrest,
        List.append_nil]
      rfl

/-- An atom in front of a text is found there again. -/
theorem atom_append_inj {v w : Value} {r s : List Char} (hv : v.Legible) (hw : w.Legible)
    (hatom : v.isList = false) (hr : Continues r) (hs : Continues s)
    (h : v.spelling ++ r = w.spelling ++ s) : v = w ∧ r = s := by
  have hword := congrArg (List.takeWhile isWord) h
  rw [takeWhile_spelling_append hv hr, takeWhile_spelling_append hw hs, hatom] at hword
  cases hatom' : w.isList with
  | true =>
      rw [hatom'] at hword
      exact absurd hword (word_of_legible hv hatom).1
  | false =>
      rw [hatom'] at hword
      obtain rfl := eq_of_atomText_eq hv hw hatom hatom' (String.toList_inj.1 hword)
      exact ⟨rfl, List.append_cancel_left h⟩

/-- No element begins where a list has ended. -/
theorem spelling_append_ne {value : Value} (h : value.Legible) {rest other : List Char}
    (hrest : Continues rest) : value.spelling ++ rest ≠ ')' :: other := by
  intro heq
  cases hlist : value.isList with
  | true =>
      obtain ⟨inner, hinner⟩ := spelling_of_list hlist
      rw [hinner] at heq
      exact absurd (List.cons.inj heq).1 (by decide)
  | false =>
      have hword := congrArg (List.takeWhile isWord) heq
      rw [takeWhile_spelling_append h hrest, hlist] at hword
      exact absurd hword (word_of_legible h hlist).1

/-- A value in front of a text is found there again, and so is the rest of a list.
The induction is on the one value; the other is taken apart along with it. -/
theorem spelling_append_inj (v : Value) :
    (∀ {w r s}, v.Legible → w.Legible → v.WellFormed → w.WellFormed → Continues r →
      Continues s → v.spelling ++ r = w.spelling ++ s → v = w ∧ r = s) ∧
    (∀ {w r s}, v.Legible → w.Legible → v.WellFormed → w.WellFormed → v.isList = true →
      w.isList = true → v.spellingRest ++ r = w.spellingRest ++ s → v = w ∧ r = s) := by
  induction v with
  | int | real | symbol =>
      refine ⟨?_, ?_⟩
      · intro w r s hv hw _ _ hr hs h
        exact atom_append_inj hv hw rfl hr hs h
      · intro w r s _ _ _ _ hlist
        cases hlist
  | empty =>
      refine ⟨?_, ?_⟩
      · intro w r s hv hw _ _ hr hs h
        cases w with
        | int | real | symbol =>
            obtain ⟨heq, hrest⟩ := atom_append_inj hw hv rfl hs hr h.symm
            exact ⟨heq.symm, hrest.symm⟩
        | empty => exact ⟨rfl, List.append_cancel_left h⟩
        | pair car cdr =>
            have hinner : ')' :: r = car.spelling ++ (cdr.spellingRest ++ s) := by
              simpa [spelling, atomText] using h
            exact absurd hinner.symm
              (spelling_append_ne hw.1 (continues_spellingRest cdr s))
      · intro w r s _ _ _ _ _ hlist h
        cases w with
        | empty => exact ⟨rfl, List.append_cancel_left h⟩
        | pair car cdr => exact absurd (List.cons.inj h).1 (by decide)
        | int | real | symbol => cases hlist
  | pair car cdr ihcar ihcdr =>
      -- An element and the rest of its list, behind a mark that they have in common.
      have hparts : ∀ {head tail r s}, (pair car cdr).Legible → (pair head tail).Legible →
          (pair car cdr).WellFormed → (pair head tail).WellFormed →
          car.spelling ++ (cdr.spellingRest ++ r) = head.spelling ++ (tail.spellingRest ++ s) →
          pair car cdr = pair head tail ∧ r = s := by
        intro head tail r s hv hw hwell hwell' h
        obtain ⟨rfl, hrest⟩ := ihcar.1 hv.1 hw.1 hwell.1 hwell'.1 (continues_spellingRest cdr r)
          (continues_spellingRest tail s) h
        obtain ⟨rfl, hsame⟩ := ihcdr.2 hv.2 hw.2 hwell.2.2 hwell'.2.2 hwell.2.1 hwell'.2.1 hrest
        exact ⟨rfl, hsame⟩
      refine ⟨?_, ?_⟩
      · intro w r s hv hw hwell hwell' hr hs h
        cases w with
        | int | real | symbol =>
            obtain ⟨heq, hrest⟩ := atom_append_inj hw hv rfl hs hr h.symm
            exact ⟨heq.symm, hrest.symm⟩
        | empty =>
            have hinner : car.spelling ++ (cdr.spellingRest ++ r) = ')' :: s := by
              simpa [spelling, atomText] using h
            exact absurd hinner (spelling_append_ne hv.1 (continues_spellingRest cdr r))
        | pair head tail =>
            refine hparts hv hw hwell hwell' ?_
            simpa [spelling] using h
      · intro w r s hv hw hwell hwell' _ hlist h
        cases w with
        | empty => exact absurd (List.cons.inj h).1 (by decide)
        | pair head tail =>
            refine hparts hv hw hwell hwell' ?_
            simpa [spellingRest] using h
        | int | real | symbol => cases hlist

/-- Values that have one canonical text are one value, if their symbols are words and
do not look like integers, and there are no reals among them. -/
theorem render_inj {v w : Value} {text : String} (hv : v.Legible) (hw : w.Legible)
    (h : v.render = .ok text) (k : w.render = .ok text) : v = w := by
  obtain ⟨hwell, htext⟩ := render_eq_ok_iff.1 h
  obtain ⟨hwell', htext'⟩ := render_eq_ok_iff.1 k
  have hsame : v.spelling ++ [] = w.spelling ++ [] := by
    rw [← htext, ← htext']
  exact (v.spelling_append_inj.1 hv hw hwell hwell' List.takeWhile_nil List.takeWhile_nil
    hsame).1

/-- `(-1 () (x (())))`, put together in two ways. -/
theorem render_inj_nested :
    (pair (int (-1)) (pair empty (list [list [symbol "x", list [empty]]]))).render =
      .ok "(-1 () (x (())))" ∧
    (list [int (-1), list [], pair (symbol "x") (list [pair empty empty])]).render =
      .ok "(-1 () (x (())))" ∧
    pair (int (-1)) (pair empty (list [list [symbol "x", list [empty]]])) =
      list [int (-1), list [], pair (symbol "x") (list [pair empty empty])] := by
  have hname : (symbol "x").Legible := by
    refine ⟨by decide, fun c hc => ?_, fun n h => ?_⟩
    · obtain rfl : c = 'x' := by simpa using hc
      decide
    · have hdigit := mem_toString_int (n := n.toInt) (c := 'x') (h ▸ by decide)
      exact absurd hdigit (by decide)
  refine ⟨by rfl, by rfl, ?_⟩
  exact render_inj ⟨trivial, trivial, ⟨hname, ⟨trivial, trivial⟩, trivial⟩, trivial⟩
    ⟨trivial, trivial, ⟨hname, ⟨trivial, trivial⟩, trivial⟩, trivial⟩ (by rfl) (by rfl)

end Value

end Sexpr
