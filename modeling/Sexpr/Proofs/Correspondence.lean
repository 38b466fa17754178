import Sexpr.Proofs.Application
import Sexpr.Proofs.Streaming

/-!
# What every evaluation is made of

Seventeen operators, and each of them does no more than a handful of things: it
answers, fails, looks a name up, binds one, prints a line, or goes on with what
came of an evaluation. This file says so once, in the form in which it is used:
whatever ties two actions together and is kept by those few things ties any two
evaluations of the same expression together.

A `Correspondence` is such a tie, together with the reason that each of the few
things keeps it. The two actions may run side by side in different states, which
is how two runs are compared; a property of one run is a correspondence that
looks at one side only. The reasons are given what the operators know at that
point, and no more: a line that is printed is the canonical text of a value, a
name that is bound belongs to no operator, and an error has its cause
(`Grounded`).

Which values may turn up on the way is a parameter. A set of values that holds
what evaluation can put together and take apart is `Closed`, and an evaluation
that starts inside of it stays there: that no operator makes up a symbol, or
lets a chain end badly, is said in this way. Binding and printing are allowed
only to a correspondence in whose set the symbols `define` and `print` are,
since that is where an application would have to take them from.
-/

namespace Sexpr

/-- The values in a set can be taken apart and put together without leaving it,
and numbers and the empty list are there. -/
structure Closed (Good : Value → Prop) : Prop where
  int (number : Int64) : Good (.int number)
  real (number : Float) : Good (.real number)
  empty : Good .empty
  pair {car cdr : Value} : Good car → Good cdr → cdr.isList = true → Good (.pair car cdr)
  car {car cdr : Value} : Good (.pair car cdr) → Good car
  cdr {car cdr : Value} : Good (.pair car cdr) → Good cdr

theorem Closed.elements {Good : Value → Prop} (hclosed : Closed Good) {value : Value}
    (h : Good value) : ∀ element ∈ value.elements, Good element := by
  induction value with
  | pair car cdr _ ih =>
      exact List.forall_mem_cons.2 ⟨hclosed.car h, ih (hclosed.cdr h)⟩
  | int | real | symbol | empty => simp [Value.elements]

theorem Closed.truth {Good : Value → Prop} (hclosed : Closed Good) (flag : Bool) :
    Good (.truth flag) :=
  hclosed.int _

theorem Closed.finish {Good : Value → Prop} (hclosed : Closed Good)
    (running : RunningTotal) : Good running.finish := by
  rw [RunningTotal.finish]
  split
  · exact hclosed.int _
  · exact hclosed.real _

/-- Every value, which is closed for lack of anything outside. -/
theorem Closed.everything : Closed fun _ => True :=
  ⟨fun _ => trivial, fun _ => trivial, trivial, fun _ _ _ => trivial,
    fun _ => trivial, fun _ => trivial⟩

/-- The causes an operator may raise an error for. Those that depend on the
state, an unbound symbol and a full sink, are not among them. -/
inductive Grounded (Good : Value → Prop) : Error → Prop where
  | typeMismatch {expected found : Kind} (hexpected : expected = .pair ∨ expected = .symbol)
      (hfound : found ≠ expected) : Grounded Good (.typeMismatch expected found)
  | notNumeric {found : Kind} (hint : found ≠ .int) (hreal : found ≠ .real) :
      Grounded Good (.notNumeric found)
  | arityMismatch {operator : Operator} {received : Nat}
      (h : operator.arity.accepts received = false) :
      Grounded Good (.arityMismatch operator.name operator.arity received)
  | divisionByZero : Grounded Good .divisionByZero
  | notAnOperator {found : Kind} (h : found ≠ .symbol) : Grounded Good (.notAnOperator found)
  | unknownOperator {name : String} (h : OperatorTable.standard.find? name = none) :
      Grounded Good (.unknownOperator name)
  | reservedName {operator : Operator} : Grounded Good (.reservedName operator.name)
  | malformedList {value : Value} (hgood : Good value) (h : ¬ value.WellFormed) :
      Grounded Good .malformedList

/-- A tie between two actions that everything an operator is made of keeps.
`Holds P` ties actions together whose answers, where they give one, have the
property `P`. -/
structure Correspondence (Good : Value → Prop) where
  Holds : ∀ {α : Type}, (α → Prop) → Action α → Action α → Prop
  pure : ∀ {α : Type} {P : α → Prop} {answer : α}, P answer →
    Holds P (pure answer) (pure answer)
  bind : ∀ {α β : Type} {P : α → Prop} {Q : β → Prop} {left right : Action α}
    {thenLeft thenRight : α → Action β}, Holds P left right →
    (∀ answer, P answer → Holds Q (thenLeft answer) (thenRight answer)) →
    Holds Q (left >>= thenLeft) (right >>= thenRight)
  fail : ∀ {α : Type} {P : α → Prop} {error : Error}, Grounded Good error →
    Holds P (Action.fail error) (Action.fail error)
  lookup : ∀ {name : String}, Good (.symbol name) →
    Holds Good (Action.lookup name) (Action.lookup name)
  define : ∀ {name : String} {value : Value}, Good (.symbol "define") →
    Good (.symbol name) → Operator.ofName? name = none → Good value →
    Holds (fun _ => True) (Action.define name value) (Action.define name value)
  emitLine : ∀ {value : Value} {text : String}, Good (.symbol "print") → Good value →
    value.render = .ok text →
    Holds (fun _ => True) (Action.emitLine text) (Action.emitLine text)

namespace Correspondence

variable {Good : Value → Prop} (tie : Correspondence Good)

/-- An answer worked out without the state, if its errors have their causes. -/
theorem ofExcept {α : Type} {P : α → Prop} {answer : Except Error α}
    (hok : ∀ result, answer = .ok result → P result)
    (herror : ∀ error, answer = .error error → Grounded Good error) :
    tie.Holds P (Action.ofExcept answer) (Action.ofExcept answer) := by
  cases answer with
  | ok result => exact tie.pure (hok result rfl)
  | error error => exact tie.fail (herror error rfl)

/-- A step on a state that the action keeps for itself, if its errors have their causes. -/
theorem ofStep {σ : Type} {step : Except Error Unit × σ}
    (herror : ∀ error, step.1 = .error error → Grounded Good error) :
    tie.Holds (fun _ => True) (Action.ofStep step) (Action.ofStep step) := by
  obtain ⟨answer, state⟩ := step
  cases answer with
  | ok => exact tie.pure trivial
  | error error => exact tie.fail (herror error rfl)

end Correspondence

/-! ## The errors of the parts

Where an operator passes on an error of one of its parts, that error has its
cause: each part is looked at once. -/

section

variable {Good : Value → Prop}

theorem grounded_mismatch {value : Value} {expected : Kind}
    (hexpected : expected = .pair ∨ expected = .symbol) (h : value.kind ≠ expected) :
    Grounded Good (value.mismatch expected) :=
  .typeMismatch hexpected h

theorem grounded_of_asSymbol {value : Value} {error : Error}
    (h : value.asSymbol = .error error) : Grounded Good error := by
  cases value with
  | symbol => cases h
  | int | real | pair | empty =>
      cases h
      exact grounded_mismatch (.inr rfl) (by simp [Value.kind])

theorem grounded_of_checkDefinable {name : String} {error : Error}
    (h : Environment.checkDefinable name = .error error) : Grounded Good error := by
  rw [Environment.checkDefinable] at h
  split at h
  · next operator hname =>
      cases h
      rw [← Operator.ofName?_eq_some_iff.1 hname]
      exact .reservedName
  · cases h

theorem grounded_of_accept {combine : Float → Float → Float} {running : RunningTotal}
    {value : Value} {error : Error} (h : (running.accept combine value).1 = .error error) :
    Grounded Good error := by
  cases value with
  | int | real => cases h
  | symbol | pair | empty =>
      cases h
      exact .notNumeric (by simp [Value.kind]) (by simp [Value.kind])

theorem grounded_of_next {ascent : Ascent} {value : Value} {error : Error}
    (h : (ascent.next value).1 = .error error) : Grounded Good error := by
  cases value with
  | int | real => cases h
  | symbol | pair | empty =>
      cases h
      exact .notNumeric (by simp [Value.kind]) (by simp [Value.kind])

theorem grounded_of_rounded {rounding : Binary64.Rounding} {value : Value} {error : Error}
    (h : value.rounded rounding = .error error) : Grounded Good error := by
  cases value with
  | int | real => cases h
  | symbol | pair | empty =>
      cases h
      exact .notNumeric (by simp [Value.kind]) (by simp [Value.kind])

theorem good_of_rounded (hclosed : Closed Good) {rounding : Binary64.Rounding}
    {value result : Value} (h : value.rounded rounding = .ok result) : Good result := by
  cases value with
  | int | real =>
      cases h
      exact hclosed.int _
  | symbol | pair | empty => cases h

theorem grounded_of_split {value : Value} {error : Error} (hgood : Good value)
    (h : value.split = .error error) : Grounded Good error := by
  cases value with
  | pair car cdr =>
      simp only [Value.split_eq] at h
      split at h
      · cases h
      · next hend =>
          cases h
          exact .malformedList hgood fun hwell => hend (hwell.terminal_eq rfl)
  | int | real | symbol | empty =>
      cases h
      exact grounded_mismatch (.inl rfl) (by simp [Value.kind])

theorem eq_pair_of_split {value : Value} {halves : Value × Value}
    (h : value.split = .ok halves) : value = .pair halves.1 halves.2 := by
  cases value with
  | pair car cdr =>
      simp only [Value.split_eq] at h
      split at h <;> cases h
      rfl
  | int | real | symbol | empty => cases h

theorem grounded_of_render {value : Value} {error : Error} (hgood : Good value)
    (h : value.render = .error error) : Grounded Good error := by
  obtain ⟨rfl, hill⟩ := Value.render_eq_error h
  exact .malformedList hgood hill

/-- An application whose operands cannot be told is at fault itself: its own
chain is the one that ends badly. -/
theorem grounded_of_operands {name : String} {entry : OperatorEntry} {head arguments : Value}
    {error : Error} (hgood : Good (.pair head arguments))
    (hentry : OperatorTable.standard.find? name = some entry)
    (h : entry.operands arguments = .error error) : Grounded Good error := by
  rw [OperatorEntry.operands_eq] at h
  split at h
  · split at h
    · cases h
    · next hcount =>
        cases h
        rw [(OperatorTable.find?_standard_eq_some hentry).2] at hcount ⊢
        exact .arityMismatch (by simpa using hcount)
  · next hend =>
      cases h
      exact .malformedList hgood fun hwell => hend (hwell.terminal_eq rfl)

/-- The operands of an application are its elements behind the first, and they
are as many as the operator takes. -/
theorem operands_eq_ok {name : String} {entry : OperatorEntry} {arguments : Value}
    {operands : List Value} (hentry : OperatorTable.standard.find? name = some entry)
    (h : entry.operands arguments = .ok operands) :
    operands = arguments.elements ∧ entry.operator.arity.accepts operands.length = true := by
  obtain ⟨rfl, hcount⟩ := OperatorEntry.eq_list_of_operands h
  rw [(OperatorTable.find?_standard_eq_some hentry).2] at hcount
  exact ⟨(Value.elements_list operands).symm, hcount⟩

end

end Sexpr
