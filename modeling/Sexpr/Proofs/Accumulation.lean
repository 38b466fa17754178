import Sexpr.Proofs.Application
import Sexpr.Proofs.Course

/-!
# Effects accumulate

An evaluation takes nothing back, whether it succeeds or fails. What was bound
when it began is bound when it returns, though perhaps to another value, and
what was printed stays printed. What it has printed itself is a number of lines,
all of them whole: the canonical text of a value is put together before any of
it is written, so a value that has none costs a line and not a part of one.

Both are said of one effect first and then of a course. Which text it is that stands
on a line is said of `print` by itself (`returns_print_iff`): that of the value of its
operand, behind whatever the operand has printed. A `print` that fails leaves the state
that the evaluation of its operand left, or the state it began in if it was not given
just one operand and so evaluated none.
-/

namespace Sexpr

/-- The text of some lines, each with its line break. -/
def linesText (lines : List String) : String :=
  String.join (lines.map (·.push '\n'))

theorem linesText_append (first second : List String) :
    linesText (first ++ second) = linesText first ++ linesText second := by
  rw [linesText, List.map_append, String.join_append, linesText, linesText]

/-! ## Bindings -/

theorem Effect.contains {before after : Machine} (h : Effect before after) {name : String}
    (hname : before.environment.contains name = true) :
    after.environment.contains name = true := by
  cases h with
  | bound hdefine => exact (Environment.contains_define hdefine name).2 (.inr hname)
  | printed => exact hname

/-! ## Lines -/

/-- A sink has got some more lines, each of them the canonical text of a value. -/
def ByteSink.Gained (lines : List String) (before after : ByteSink) : Prop :=
  (∀ line ∈ lines, ∃ value : Value, value.render = .ok line) ∧
    after.bytes = before.bytes ++ (linesText lines).toUTF8

theorem ByteSink.Gained.refl (sink : ByteSink) : ByteSink.Gained [] sink sink := by
  constructor
  · intro line hline
    cases hline
  · show sink.bytes = sink.bytes ++ ByteArray.empty
    rw [ByteArray.append_empty]

theorem ByteSink.Gained.trans {first second third : ByteSink} {lines more : List String}
    (h : ByteSink.Gained lines first second) (k : ByteSink.Gained more second third) :
    ByteSink.Gained (lines ++ more) first third := by
  constructor
  · intro line hline
    rcases List.mem_append.1 hline with hline | hline
    · exact h.1 line hline
    · exact k.1 line hline
  · rw [k.2, h.2, linesText_append, ByteArray.append_assoc]
    exact congrArg (first.bytes ++ ·) String.toByteArray_append.symm

/-- A line that has been taken in is one more. -/
theorem ByteSink.Gained.line {before after : ByteSink} {value : Value} {text : String}
    (hrender : value.render = .ok text) (hwrite : before.writeLine text = (.ok (), after)) :
    ByteSink.Gained [text] before after := by
  constructor
  · intro line hline
    rw [List.mem_singleton.1 hline]
    exact ⟨value, hrender⟩
  · rw [ByteSink.bytes_of_writeLine hwrite, linesText, List.map_singleton, String.join_cons]
    simp

theorem Effect.gained {before after : Machine} (h : Effect before after) :
    ∃ lines, ByteSink.Gained lines before.sink after.sink := by
  cases h with
  | bound => exact ⟨[], .refl _⟩
  | printed hrender hwrite => exact ⟨_, .line hrender hwrite⟩

theorem Course.gained {before after : Machine} (h : Course before after) :
    ∃ lines, ByteSink.Gained lines before.sink after.sink := by
  induction h with
  | refl => exact ⟨[], .refl _⟩
  | tail _ heffect ih =>
      obtain ⟨lines, hlines⟩ := ih
      obtain ⟨more, hmore⟩ := heffect.gained
      exact ⟨lines ++ more, hlines.trans hmore⟩

/-! ## What `print` writes -/

section

variable {operand value : Value} {machine after last : Machine} {text : String} {error : Error}
variable {answer result : Except Error Value}

theorem eval_print (operand : Value) (fuel : Nat) :
    eval (fuel + 1) (application .print [operand]) =
      (eval fuel operand >>= fun value => Action.ofExcept value.render >>= fun text =>
        Action.emitLine text >>= fun _ => pure .empty) := by
  funext machine
  exact eval_application rfl fuel machine

/-- `print` writes the canonical text of the value of its operand and a line break, and
nothing else. Whether that succeeds is up to the sink. -/
theorem returns_print (h : Returns operand machine (.ok value) after)
    (htext : value.render = .ok text) :
    Returns (application .print [operand]) machine
      ((after.sink.writeLine text).1.map fun _ => .empty)
      { after with sink := (after.sink.writeLine text).2 } := by
  obtain ⟨fuel, h⟩ := h
  refine ⟨fuel + 1, ?_⟩
  rw [eval_print, Action.bind_of_done h, htext]
  refine (Action.bind_of_done rfl).trans ?_
  rcases hwrite : after.sink.writeLine text with ⟨written, sink⟩
  have hemit : Action.emitLine text after = .done written { after with sink } := by
    rw [Action.emitLine, hwrite]
  cases written with
  | ok => exact Action.bind_of_done hemit
  | error error => exact Action.bind_of_error hemit

/-- Where the operand has no value, or its value no text, `print` writes nothing. -/
theorem returns_print_of_error (h : Returns operand machine result after)
    (herror : (result >>= Value.render) = .error error) :
    Returns (application .print [operand]) machine (.error error) after := by
  obtain ⟨fuel, h⟩ := h
  refine ⟨fuel + 1, ?_⟩
  rw [eval_print]
  cases result with
  | ok value =>
      refine (Action.bind_of_done h).trans (Action.bind_of_error ?_)
      rw [show value.render = .error error from herror]
      rfl
  | error reason =>
      cases herror
      exact Action.bind_of_error h

theorem exists_returns_of_print (h : Returns (application .print [operand]) machine answer last) :
    ∃ result after, Returns operand machine result after := by
  obtain ⟨fuel, h⟩ := h
  cases fuel with
  | zero => cases h
  | succ fuel =>
      rw [eval_print] at h
      rcases Action.bind_eq_done h with ⟨error, hoperand, -⟩ | ⟨value, after, hoperand, -⟩
      · exact ⟨_, _, fuel, hoperand⟩
      · exact ⟨_, _, fuel, hoperand⟩

/-- Where there is a text, a sink that never fails takes all of its line in. -/
theorem returns_print_of_text (hroom : machine.sink.room = none)
    (h : Returns operand machine result after) (htext : (result >>= Value.render) = .ok text) :
    Returns (application .print [operand]) machine (.ok .empty)
      ⟨after.environment, ⟨after.sink.bytes ++ (text.push '\n').toUTF8, none⟩⟩ := by
  cases result with
  | ok value =>
      have hprint := returns_print h htext
      rw [ByteSink.writeLine_of_unbounded (h.room_eq_none hroom)] at hprint
      exact hprint
  | error => cases htext

/-- All that `print` does on a sink that never fails. What its operand has printed is
followed by the text of the value of the operand and a line break, or by nothing. -/
theorem returns_print_iff (hroom : machine.sink.room = none) :
    Returns (application .print [operand]) machine answer last ↔
      ∃ result after, Returns operand machine result after ∧
        match result >>= Value.render with
        | .ok text => answer = .ok .empty ∧
            last = ⟨after.environment, ⟨after.sink.bytes ++ (text.push '\n').toUTF8, none⟩⟩
        | .error error => answer = .error error ∧ last = after := by
  constructor
  · intro h
    obtain ⟨result, after, hoperand⟩ := exists_returns_of_print h
    refine ⟨result, after, hoperand, ?_⟩
    split
    · next text htext => exact returns_unique h (returns_print_of_text hroom hoperand htext)
    · next error herror => exact returns_unique h (returns_print_of_error hoperand herror)
  · rintro ⟨result, after, hoperand, hprint⟩
    split at hprint
    · next text htext =>
        obtain ⟨rfl, rfl⟩ := hprint
        exact returns_print_of_text hroom hoperand htext
    · next error herror =>
        obtain ⟨rfl, rfl⟩ := hprint
        exact returns_print_of_error hoperand herror

/-- A `print` that fails on a sink that never does has evaluated its operand and
done nothing else, or nothing at all. -/
theorem state_of_print_error {arguments : Value} (hroom : machine.sink.room = none)
    (h : Returns (.pair (.symbol "print") arguments) machine (.error error) after) :
    (∃ operand result, arguments = .list [operand] ∧ Returns operand machine result after) ∨
      (¬ ∃ operand, arguments = .list [operand]) ∧ after = machine := by
  by_cases hone : ∃ operand, arguments = .list [operand]
  · obtain ⟨operand, rfl⟩ := hone
    obtain ⟨result, middle, hoperand, hprint⟩ := (returns_print_iff hroom).1 h
    split at hprint
    · cases hprint.1
    · obtain ⟨-, rfl⟩ := hprint
      exact .inl ⟨operand, result, rfl, hoperand⟩
  · refine .inr ⟨hone, ?_⟩
    obtain ⟨fuel, h⟩ := h
    cases fuel with
    | zero => cases h
    | succ fuel =>
        rw [show "print" = Operator.print.name from rfl, eval_named] at h
        rcases Action.bind_eq_done h with ⟨_, hoperands, -⟩ | ⟨operands, _, hoperands, -⟩
        · exact (Action.ofExcept_eq_done hoperands).2
        · obtain ⟨haccepted, -⟩ := Action.ofExcept_eq_done hoperands
          obtain ⟨rfl, hcount⟩ := OperatorEntry.eq_list_of_operands haccepted
          obtain ⟨operand, rfl⟩ : ∃ operand, operands = [operand] :=
            List.length_eq_one_iff.1 (by simpa [Operator.arity, Arity.accepts] using hcount)
          exact absurd ⟨operand, rfl⟩ hone

end

/-- An evaluation on a sink that never fails takes nothing back: what was bound
stays bound, and what is printed is a number of whole lines behind what was
printed before. A `print` adds one to what its operand printed, with the text of
the value of its operand, or if it fails it adds none. -/
theorem returns_accumulates {expression : Value} {machine after : Machine}
    {answer : Except Error Value} (hroom : machine.sink.room = none)
    (h : Returns expression machine answer after) :
    (∀ name, machine.environment.contains name = true → after.environment.contains name = true) ∧
    (∃ lines : List String, (∀ line ∈ lines, ∃ value : Value, value.render = .ok line) ∧
      after.sink.bytes = machine.sink.bytes ++ (linesText lines).toUTF8) ∧
    (∀ arguments error, expression = .pair (.symbol "print") arguments → answer = .error error →
      (∃ operand result, arguments = .list [operand] ∧ Returns operand machine result after) ∨
        (¬ ∃ operand, arguments = .list [operand]) ∧ after = machine) ∧
    (∀ operand value middle text, expression = application .print [operand] →
      Returns operand machine (.ok value) middle → value.render = .ok text →
      answer = .ok .empty ∧
        after = ⟨middle.environment, ⟨middle.sink.bytes ++ (text.push '\n').toUTF8, none⟩⟩) := by
  have hcourse := h.course_of_unbounded hroom
  refine ⟨?_, hcourse.gained, ?_, ?_⟩
  · intro name
    exact hcourse.keeps (P := fun machine => machine.environment.contains name = true)
      fun heffect => heffect.contains
  · rintro arguments error rfl rfl
    exact state_of_print_error hroom h
  · rintro operand value middle text rfl hoperand htext
    exact returns_unique h (returns_print_of_text hroom hoperand htext)

/-- `(print (cons (quote (1 . 2)) (define x (print 7))))` prints `7` and binds `x`, and
then finds that what it has to print has no canonical text. The inner `print` by itself
leaves the line of the seven and nothing else. -/
theorem returns_accumulates_print :
    (⟨(NameMap.empty.insert "y" (.int 1)).insert "x" .empty⟩ : Environment).contains "y" = true ∧
    (∃ lines : List String, (∀ line ∈ lines, ∃ value : Value, value.render = .ok line) ∧
      "7\n".toUTF8 = ByteArray.empty ++ (linesText lines).toUTF8) ∧
    (∃ result, Returns (.list [.symbol "cons", .list [.symbol "quote", .pair (.int 1) (.int 2)],
        .list [.symbol "define", .symbol "x", .list [.symbol "print", .int 7]]])
      ⟨⟨NameMap.empty.insert "y" (.int 1)⟩, .unbounded⟩ result
      ⟨⟨(NameMap.empty.insert "y" (.int 1)).insert "x" .empty⟩,
        (ByteSink.unbounded.writeLine "7").2⟩) ∧
    ∀ answer after, Returns (application .print [.int 7]) ⟨.empty, .unbounded⟩ answer after →
      answer = .ok .empty ∧ after = ⟨.empty, ⟨ByteArray.empty ++ "7\n".toUTF8, none⟩⟩ := by
  have hreturns : Returns (.list [.symbol "print", .list [.symbol "cons",
        .list [.symbol "quote", .pair (.int 1) (.int 2)],
        .list [.symbol "define", .symbol "x", .list [.symbol "print", .int 7]]]])
      ⟨⟨NameMap.empty.insert "y" (.int 1)⟩, .unbounded⟩ (.error .malformedList)
      ⟨⟨(NameMap.empty.insert "y" (.int 1)).insert "x" .empty⟩,
        (ByteSink.unbounded.writeLine "7").2⟩ :=
    ⟨6, rfl⟩
  have hseven : Returns (.int 7) ⟨.empty, .unbounded⟩ (.ok (.int 7)) ⟨.empty, .unbounded⟩ :=
    ⟨1, rfl⟩
  obtain ⟨hbound, hlines, hfailed, -⟩ := returns_accumulates rfl hreturns
  refine ⟨hbound "y" rfl, hlines, ?_, fun answer after h => ?_⟩
  · rcases hfailed _ _ rfl rfl with ⟨operand, result, harguments, hresult⟩ | ⟨hnone, -⟩
    · cases harguments
      exact ⟨result, hresult⟩
    · exact absurd ⟨_, rfl⟩ hnone
  · exact (returns_accumulates rfl h).2.2.2 _ _ _ "7" rfl hseven rfl

end Sexpr
