import Mathlib.Data.Set.Insert
import Sexpr.Proofs.Bindings
import Sexpr.Proofs.Output
import Sexpr.Proofs.Returns
import Sexpr.Proofs.Symbols

/-!
# Evaluation is local to the names it is given

Fix a set of names that contains every symbol of an expression, and with each
name that is bound every symbol of its value. Then nothing outside of the set is
ever looked at. Two evaluations of the expression in environments that agree on
the set go the same way and print the same, fail for the same reason if they
fail, and end in environments that agree on the set; and neither of them touches
a binding outside.

The two runs are followed side by side. What ties them together must survive
what they do on the way, which is to bind names: the name is in the set since it
was mentioned, and the value that is bound is the same in both runs and mentions
only names in the set. That a value may be evaluated as code after that changes
nothing, for code is no more than a value that mentions names in the set.

Sinks without a bound are assumed. Equal sinks would do as well.
-/

namespace Sexpr

namespace Environment

/-- Two environments agree on some names, and what these are bound to mentions
no others. -/
structure AgreesOn (names : Set String) (left right : Environment) : Prop where
  lookup : ∀ name ∈ names, left.lookup name = right.lookup name
  within : ∀ name ∈ names, ∀ value, left.lookup name = .ok value → value.Within names

/-- Two environments have the same bindings, except for some names. -/
def SameOutside (names : Set String) (before after : Environment) : Prop :=
  ∀ name ∉ names, after.lookup name = before.lookup name

variable {names : Set String} {left right extendedLeft extendedRight : Environment}
  {name : String} {value : Value}

theorem AgreesOn.symm (h : left.AgreesOn names right) : right.AgreesOn names left where
  lookup name hname := (h.lookup name hname).symm
  within name hname value hvalue := by
    rw [← h.lookup name hname] at hvalue
    exact h.within name hname value hvalue

theorem AgreesOn.define (h : left.AgreesOn names right) (hvalue : value.Within names)
    (hleft : left.define name value = (.ok (), extendedLeft))
    (hright : right.define name value = (.ok (), extendedRight)) :
    extendedLeft.AgreesOn names extendedRight where
  lookup other hother := by
    rw [lookup_define hleft, lookup_define hright, h.lookup other hother]
  within other hother found hfound := by
    rw [lookup_define hleft] at hfound
    split at hfound
    · cases hfound
      exact hvalue
    · exact h.within other hother found hfound

theorem SameOutside.refl (environment : Environment) : environment.SameOutside names environment :=
  fun _ _ => rfl

theorem SameOutside.trans {first second third : Environment} (h : first.SameOutside names second)
    (k : second.SameOutside names third) : first.SameOutside names third :=
  fun name hname => (k name hname).trans (h name hname)

theorem SameOutside.of_define (h : left.define name value = (.ok (), extendedLeft))
    (hname : name ∈ names) : left.SameOutside names extendedLeft := by
  intro other hother
  rw [lookup_define h, if_neg]
  rintro rfl
  exact hother hname

end Environment

/-! ## Two runs -/

/-- Two states that look alike from inside of a set of names. -/
structure Machine.Alike (names : Set String) (left right : Machine) : Prop where
  sink : left.sink = right.sink
  room : left.sink.room = none
  environment : left.environment.AgreesOn names right.environment

theorem Machine.Alike.symm {names : Set String} {left right : Machine}
    (h : left.Alike names right) : right.Alike names left where
  sink := h.sink.symm
  room := h.sink ▸ h.room
  environment := h.environment.symm

/-- Two runs have turned out alike. -/
inductive Run.Alike {α : Type} (names : Set String) (P : α → Prop) (left right : Machine) :
    Run Machine (Except Error α) → Run Machine (Except Error α) → Prop where
  | done {answer : Except Error α} {afterLeft afterRight : Machine}
      (holds : ∀ result, answer = .ok result → P result)
      (alike : afterLeft.Alike names afterRight)
      (sameLeft : left.environment.SameOutside names afterLeft.environment)
      (sameRight : right.environment.SameOutside names afterRight.environment) :
      Run.Alike names P left right (.done answer afterLeft) (.done answer afterRight)
  | stuck : Run.Alike names P left right .stuck .stuck
  | outOfFuel : Run.Alike names P left right .outOfFuel .outOfFuel

variable {names : Set String} {left right : Machine}

/-- What changes no state and depends on none turns out alike. -/
theorem Run.Alike.unchanged {α : Type} {P : α → Prop} (h : left.Alike names right)
    {answer : Except Error α} (holds : ∀ result, answer = .ok result → P result) :
    Run.Alike names P left right (.done answer left) (.done answer right) :=
  .done holds h (.refl _) (.refl _)

theorem Run.Alike.bind {α β : Type} {P : α → Prop} {Q : β → Prop}
    {first second : Action α} {thenFirst thenSecond : α → Action β}
    (h : Run.Alike names P left right (first left) (second right))
    (hthen : ∀ answer, P answer → ∀ left right : Machine, left.Alike names right →
      Run.Alike names Q left right (thenFirst answer left) (thenSecond answer right)) :
    Run.Alike names Q left right ((first >>= thenFirst) left) ((second >>= thenSecond) right) := by
  simp only [Bind.bind, Action.bind]
  generalize first left = firstRun, second right = secondRun at h ⊢
  cases h with
  | @done answer afterLeft afterRight holds alike sameLeft sameRight =>
      cases answer with
      | ok answer =>
          have hrest := hthen answer (holds answer rfl) afterLeft afterRight alike
          dsimp only
          generalize thenFirst answer afterLeft = firstRun,
            thenSecond answer afterRight = secondRun at hrest ⊢
          cases hrest with
          | done holds alike thenLeft thenRight =>
              exact .done holds alike (sameLeft.trans thenLeft) (sameRight.trans thenRight)
          | stuck => exact .stuck
          | outOfFuel => exact .outOfFuel
      | error error =>
          refine .done (fun _ hok => ?_) alike sameLeft sameRight
          cases hok
  | stuck => exact .stuck
  | outOfFuel => exact .outOfFuel

/-- The correspondence of two runs that look alike from inside of a set. -/
def alikeness (names : Set String) : Correspondence (Value.Within names) where
  Holds P first second := ∀ left right : Machine, left.Alike names right →
    Run.Alike names P left right (first left) (second right)
  pure h _ _ halike := .unchanged halike fun _ heq => Except.ok.inj heq ▸ h
  bind h hthen left right halike := (h left right halike).bind hthen
  fail _ _ _ halike := .unchanged halike fun _ heq => nomatch heq
  lookup {name} h left right halike := by
    have hname := Value.within_symbol.1 h
    simp only [Action.lookup, ← halike.environment.lookup name hname]
    exact .unchanged halike (halike.environment.within name hname)
  define {name value} _ hsymbol hfree hvalue left right halike := by
    have hname := Value.within_symbol.1 hsymbol
    have hleft := Environment.define_of_free hfree left.environment value
    have hright := Environment.define_of_free hfree right.environment value
    simp only [Action.define, hleft, hright]
    exact .done (fun _ _ => trivial)
      ⟨halike.sink, halike.room, halike.environment.define hvalue hleft hright⟩
      (.of_define hleft hname) (.of_define hright hname)
  emitLine {_ text} _ _ _ left right halike := by
    simp only [Action.emitLine, ← halike.sink, ByteSink.writeLine_of_unbounded halike.room]
    exact .done (fun _ _ => trivial) ⟨rfl, rfl, halike.environment⟩ (.refl _) (.refl _)

/-- From states that look alike, an evaluation that returns in the one returns in
the other. -/
theorem Machine.Alike.returns {expression : Value} {answer : Except Error Value}
    {after : Machine} (halike : left.Alike names right) (hexpression : expression.Within names)
    (h : Returns expression left answer after) :
    ∃ later, Returns expression right answer later ∧
      Run.Alike names (Value.Within names) left right (.done answer after)
        (.done answer later) := by
  obtain ⟨fuel, h⟩ := h
  have hrun := eval_holds (alikeness names) (closed_within names)
    (fun _ _ _ => .outOfFuel) fuel expression hexpression left right halike
  rw [h] at hrun
  generalize hright : eval fuel expression right = run at hrun
  cases hrun with
  | @done _ _ later holds alike sameLeft sameRight =>
      exact ⟨later, ⟨fuel, hright⟩, .done holds alike sameLeft sameRight⟩

/-- Two evaluations of an expression in environments that agree on the names it
may come across go alike: one returns if the other does, and then they agree on
the answer, on what they print and on those names, and each of them leaves all
other names alone. -/
theorem returns_locality {names : Set String} {expression : Value} {left right : Environment}
    {sink : ByteSink} (hsink : sink.room = none) (hexpression : expression.Within names)
    (hlookup : ∀ name ∈ names, left.lookup name = right.lookup name)
    (hwithin : ∀ name ∈ names, ∀ value, left.lookup name = .ok value → value.Within names) :
    ((∃ answer after, Returns expression ⟨left, sink⟩ answer after) ↔
      ∃ answer after, Returns expression ⟨right, sink⟩ answer after) ∧
    ∀ {first second : Except Error Value} {afterLeft afterRight : Machine},
      Returns expression ⟨left, sink⟩ first afterLeft →
      Returns expression ⟨right, sink⟩ second afterRight →
      first = second ∧
      afterLeft.sink = afterRight.sink ∧
      (∀ value, first = .ok value → value.Within names) ∧
      afterLeft.environment.AgreesOn names afterRight.environment ∧
      left.SameOutside names afterLeft.environment ∧
      right.SameOutside names afterRight.environment := by
  have halike : (Machine.mk left sink).Alike names ⟨right, sink⟩ :=
    ⟨rfl, hsink, hlookup, hwithin⟩
  refine ⟨⟨?_, ?_⟩, ?_⟩
  · rintro ⟨answer, after, h⟩
    obtain ⟨later, hreturns, -⟩ := halike.returns hexpression h
    exact ⟨answer, later, hreturns⟩
  · rintro ⟨answer, after, h⟩
    obtain ⟨later, hreturns, -⟩ := halike.symm.returns hexpression h
    exact ⟨answer, later, hreturns⟩
  · intro first second afterLeft afterRight hleft hright
    obtain ⟨later, hreturns, hrun⟩ := halike.returns hexpression hleft
    obtain ⟨rfl, rfl⟩ := returns_unique hreturns hright
    cases hrun with
    | done holds alike sameLeft sameRight =>
        exact ⟨rfl, alike.sink, holds, alike.environment, sameLeft, sameRight⟩

/-- `(define x (+ x 1))` does not notice `y`, which only one of the two environments
has. -/
theorem returns_locality_define :
    Environment.AgreesOn {"define", "+", "x"}
      ⟨((NameMap.empty.insert "x" (.int 2)).insert "y" (.int 7)).insert "x" (.int 3)⟩
      ⟨(NameMap.empty.insert "x" (.int 2)).insert "x" (.int 3)⟩ ∧
    Environment.SameOutside {"define", "+", "x"}
      ⟨(NameMap.empty.insert "x" (.int 2)).insert "y" (.int 7)⟩
      ⟨((NameMap.empty.insert "x" (.int 2)).insert "y" (.int 7)).insert "x" (.int 3)⟩ := by
  have hexpression : (Value.list [.symbol "define", .symbol "x",
      .list [.symbol "+", .symbol "x", .int 1]]).Within {"define", "+", "x"} := by
    simp [Value.list, Value.chain]
  have hlookup : ∀ name ∈ ({"define", "+", "x"} : Set String),
      (⟨(NameMap.empty.insert "x" (.int 2)).insert "y" (.int 7)⟩ : Environment).lookup name =
        (⟨NameMap.empty.insert "x" (.int 2)⟩ : Environment).lookup name := by
    rintro name (rfl | rfl | rfl) <;> rfl
  have hwithin : ∀ name ∈ ({"define", "+", "x"} : Set String), ∀ value,
      (⟨(NameMap.empty.insert "x" (.int 2)).insert "y" (.int 7)⟩ : Environment).lookup name =
        .ok value → value.Within {"define", "+", "x"} := by
    rintro name (rfl | rfl | rfl) value hvalue <;> cases hvalue
    exact fun _ hname => nomatch hname
  have hleft : Returns
      (.list [.symbol "define", .symbol "x", .list [.symbol "+", .symbol "x", .int 1]])
      ⟨⟨(NameMap.empty.insert "x" (.int 2)).insert "y" (.int 7)⟩, .unbounded⟩ (.ok .empty)
      ⟨⟨((NameMap.empty.insert "x" (.int 2)).insert "y" (.int 7)).insert "x" (.int 3)⟩,
        .unbounded⟩ :=
    ⟨3, rfl⟩
  have hright : Returns
      (.list [.symbol "define", .symbol "x", .list [.symbol "+", .symbol "x", .int 1]])
      ⟨⟨NameMap.empty.insert "x" (.int 2)⟩, .unbounded⟩ (.ok .empty)
      ⟨⟨(NameMap.empty.insert "x" (.int 2)).insert "x" (.int 3)⟩, .unbounded⟩ :=
    ⟨3, rfl⟩
  obtain ⟨-, -, -, hagree, hsame, -⟩ :=
    (returns_locality rfl hexpression hlookup hwithin).2 hleft hright
  exact ⟨hagree, hsame⟩

end Sexpr
