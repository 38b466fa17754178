import Sexpr.Proofs.Accumulation

/-!
# What an evaluation prints

An evaluation writes into a sink and never looks at it. Whatever the sink holds when
the evaluation begins, the evaluation does what it would have done with an empty sink,
and what it prints comes to stand behind what was there (`eval_behind`). So an evaluation
may be looked at by itself: it turns an environment into another, with an answer and
some lines of its own, and this is all that anything around it can tell
(`returns_iff_evaluates`). The lines are those that `print` makes of the values of its
operands (`Evaluates.print`).

Expressions evaluated in turn are then told by their environments and lines alone. This
is what everything that evaluates more than one expression is measured by.
-/

namespace Sexpr

/-! ## Behind other output -/

/-- The same sink, had it taken in some bytes before all the others. -/
def ByteSink.behind (bytes : ByteArray) (sink : ByteSink) : ByteSink :=
  ⟨bytes ++ sink.bytes, sink.room⟩

def Machine.behind (bytes : ByteArray) (machine : Machine) : Machine :=
  { machine with sink := machine.sink.behind bytes }

def Run.behind {α : Type} (bytes : ByteArray) : Run Machine α → Run Machine α
  | .done answer after => .done answer (after.behind bytes)
  | .stuck => .stuck
  | .outOfFuel => .outOfFuel

theorem ByteSink.writeLine_behind (bytes : ByteArray) (sink : ByteSink) (text : String) :
    (sink.behind bytes).writeLine text =
      ((sink.writeLine text).1, (sink.writeLine text).2.behind bytes) := by
  obtain ⟨before, room⟩ := sink
  cases room with
  | none => simp [behind, writeLine, write, ByteArray.append_assoc]
  | some room =>
      simp only [behind, writeLine, write]
      split <;> simp [ByteArray.append_assoc]

/-- The left action does behind some output what the right one does without. -/
def displacement (bytes : ByteArray) : Correspondence fun _ => True where
  Holds P left right := ∀ machine, left (machine.behind bytes) = (right machine).behind bytes ∧
    ∀ answer after, right machine = .done (.ok answer) after → P answer
  pure h machine := by
    refine ⟨rfl, fun answer after hdone => ?_⟩
    cases hdone
    exact h
  bind {_ _ _ _ left right _ _} h hthen machine := by
    obtain ⟨hsame, hanswer⟩ := h machine
    simp only [Bind.bind, Action.bind, hsame]
    cases hright : right machine with
    | done answer after =>
        cases answer with
        | ok answer => exact hthen answer (hanswer answer after hright) after
        | error error => exact ⟨rfl, fun _ _ hdone => nomatch hdone⟩
    | stuck => exact ⟨rfl, fun _ _ hdone => nomatch hdone⟩
    | outOfFuel => exact ⟨rfl, fun _ _ hdone => nomatch hdone⟩
  fail _ _ := ⟨rfl, fun _ _ hdone => nomatch hdone⟩
  lookup _ _ := ⟨rfl, fun _ _ _ => trivial⟩
  define {name value} _ _ hfree _ machine := by
    refine ⟨?_, fun _ _ _ => trivial⟩
    simp only [Action.define, Machine.behind, Environment.define_of_free hfree]
    rfl
  emitLine {_ text} _ _ _ machine := by
    refine ⟨?_, fun _ _ _ => trivial⟩
    simp only [Action.emitLine, Machine.behind, ByteSink.writeLine_behind]
    rfl

theorem eval_behind (bytes : ByteArray) (fuel : Nat) (expression : Value) (machine : Machine) :
    eval fuel expression (machine.behind bytes) = (eval fuel expression machine).behind bytes :=
  (eval_holds (displacement bytes) Closed.everything (fun _ => ⟨rfl, fun _ _ h => nomatch h⟩)
    fuel expression trivial machine).1

theorem eval_of_unbounded (fuel : Nat) (expression : Value) (environment : Environment)
    (bytes : ByteArray) :
    eval fuel expression ⟨environment, ⟨bytes, none⟩⟩ =
      (evaluate fuel expression environment).behind bytes := by
  have h := eval_behind bytes fuel expression ⟨environment, .unbounded⟩
  rw [Machine.behind, ByteSink.behind, ByteSink.unbounded, ByteArray.append_empty] at h
  exact h

/-! ## By itself -/

/-- An expression evaluated in an environment has this answer, prints these lines and
leaves this environment. -/
def Evaluates (environment : Environment) (expression : Value) (answer : Except Error Value)
    (lines : List String) (left : Environment) : Prop :=
  ∃ fuel after, evaluate fuel expression environment = .done answer after ∧
    ByteSink.Gained lines .unbounded after.sink ∧ after.environment = left

theorem eq_of_evaluate {fuel : Nat} {expression : Value} {environment : Environment}
    {answer : Except Error Value} {after : Machine} {lines : List String}
    (hrun : evaluate fuel expression environment = .done answer after)
    (hlines : ByteSink.Gained lines .unbounded after.sink) :
    after = ⟨after.environment, ⟨(linesText lines).toUTF8, none⟩⟩ := by
  have hroom : after.sink.room = none := Returns.room_eq_none ⟨fuel, hrun⟩ rfl
  have hbytes : after.sink.bytes = ByteArray.empty ++ (linesText lines).toUTF8 := hlines.2
  rw [ByteArray.empty_append] at hbytes
  rw [← hbytes, ← hroom]

theorem returns_iff_evaluates {environment : Environment} {bytes : ByteArray}
    {expression : Value} {answer : Except Error Value} {after : Machine} :
    Returns expression ⟨environment, ⟨bytes, none⟩⟩ answer after ↔
      ∃ lines left, Evaluates environment expression answer lines left ∧
        after = ⟨left, ⟨bytes ++ (linesText lines).toUTF8, none⟩⟩ := by
  constructor
  · rintro ⟨fuel, h⟩
    rw [eval_of_unbounded] at h
    cases hrun : evaluate fuel expression environment with
    | done result alone =>
        rw [hrun] at h
        cases h
        obtain ⟨lines, hlines⟩ := (Returns.course_of_unbounded ⟨fuel, hrun⟩ rfl).gained
        refine ⟨lines, alone.environment, ⟨fuel, alone, hrun, hlines, rfl⟩, ?_⟩
        rw [eq_of_evaluate hrun hlines]
        rfl
    | stuck => simp [hrun, Run.behind] at h
    | outOfFuel => simp [hrun, Run.behind] at h
  · rintro ⟨lines, _, ⟨fuel, alone, hrun, hlines, rfl⟩, rfl⟩
    refine ⟨fuel, ?_⟩
    rw [eval_of_unbounded, hrun, eq_of_evaluate hrun hlines]
    rfl

/-- What `print` prints by itself: the lines of its operand, and one more with the text of
the value of its operand. -/
theorem Evaluates.print {environment left : Environment} {operand value : Value}
    {lines : List String} {text : String}
    (h : Evaluates environment operand (.ok value) lines left)
    (htext : value.render = .ok text) :
    Evaluates environment (application .print [operand]) (.ok .empty) (lines ++ [text]) left := by
  obtain ⟨fuel, after, hrun, hlines, rfl⟩ := h
  have hroom : after.sink.room = none := Returns.room_eq_none ⟨fuel, hrun⟩ rfl
  have hwrite := ByteSink.writeLine_of_unbounded hroom text
  obtain ⟨more, hprint⟩ := returns_print ⟨fuel, hrun⟩ htext
  rw [hwrite] at hprint
  exact ⟨more, _, hprint, hlines.trans (.line htext hwrite), rfl⟩

/-- `(print (print 7))` prints the seven and then the value of the inner `print`. -/
example : Evaluates .empty (application .print [application .print [.int 7]]) (.ok .empty)
    ["7", "()"] .empty := by
  have hseven : Evaluates .empty (.int 7) (.ok (.int 7)) [] .empty := ⟨1, _, rfl, .refl _, rfl⟩
  exact (hseven.print rfl).print rfl

/-! ## In turn -/

/-- Expressions evaluated one after the other in one environment have these answers,
print these lines together and leave this environment. -/
inductive EvaluatesInTurn : Environment → List (Value × Except Error Value) → List String →
    Environment → Prop where
  | nil {environment : Environment} : EvaluatesInTurn environment [] [] environment
  | cons {environment middle left : Environment} {expression : Value}
      {answer : Except Error Value} {rest : List (Value × Except Error Value)}
      {lines more : List String} (h : Evaluates environment expression answer lines middle)
      (hrest : EvaluatesInTurn middle rest more left) :
      EvaluatesInTurn environment ((expression, answer) :: rest) (lines ++ more) left

namespace EvaluatesInTurn

variable {environment middle left : Environment} {lines more : List String}
  {evaluated rest : List (Value × Except Error Value)}

theorem single {expression : Value} {answer : Except Error Value}
    (h : Evaluates environment expression answer lines left) :
    EvaluatesInTurn environment [(expression, answer)] lines left := by
  simpa using EvaluatesInTurn.cons h .nil

theorem append (h : EvaluatesInTurn environment evaluated lines middle)
    (k : EvaluatesInTurn middle rest more left) :
    EvaluatesInTurn environment (evaluated ++ rest) (lines ++ more) left := by
  induction h with
  | nil => exact k
  | cons hfirst _ ih =>
      rw [List.cons_append, List.append_assoc]
      exact .cons hfirst (ih k)

end EvaluatesInTurn

end Sexpr
