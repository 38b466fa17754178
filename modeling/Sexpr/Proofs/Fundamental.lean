import Sexpr.Proofs.Correspondence

/-!
# Evaluations correspond

The induction that `Correspondence` was made for. Each operator is walked once,
along the lines of its definition: a part that evaluates an operand corresponds
by assumption, a part that works out an answer does because its errors have
their causes, and what is put together in the end lies in the set because the
set is closed. Then a step of evaluation corresponds, and by induction on the
fuel so does an evaluation.

What an operator is told about the evaluation of its parts is kept as small as
it is used. Every operator evaluates operands only, with the one exception of
`eval`, which evaluates what came of its operand; so only there is anything
assumed about evaluating a value from outside of the application.
-/

namespace Sexpr

variable {Good : Value → Prop} (tie : Correspondence Good)
variable {left right : Value → Action Value} {operands : List Value}

namespace Operator

/-! ## Operands -/

theorem operand_holds {P : Value → Prop} (hoperands : ∀ expression ∈ operands, P expression)
    {position : Nat} (h : position < operands.length) :
    tie.Holds P (operand operands position) (operand operands position) := by
  rw [operand, List.getElem?_eq_getElem h]
  exact tie.pure (hoperands _ (List.getElem_mem h))

theorem operandsFrom_holds {position : Nat} (h : position ≤ operands.length) :
    tie.Holds (fun rest => ∀ expression ∈ rest, expression ∈ operands)
      (operandsFrom operands position) (operandsFrom operands position) := by
  rw [operandsFrom, if_pos h]
  exact tie.pure fun _ => List.mem_of_mem_drop

section

variable (hev : ∀ expression ∈ operands, tie.Holds Good (left expression) (right expression))

include hev

/-- Evaluating an operand and going on from its value, as all but the folds
do. -/
theorem evaluated_holds {β : Type} {Q : β → Prop} {position : Nat}
    (h : position < operands.length) {thenLeft thenRight : Value → Action β}
    (hthen : ∀ value, Good value → tie.Holds Q (thenLeft value) (thenRight value)) :
    tie.Holds Q (operand operands position >>= fun expression => left expression >>= thenLeft)
      (operand operands position >>= fun expression => right expression >>= thenRight) :=
  tie.bind (operand_holds tie hev h) fun _ hholds => tie.bind hholds hthen

/-! ## Folds -/

theorem addInto_holds (running : RunningTotal) :
    tie.Holds (fun _ => True) (addInto left running operands)
      (addInto right running operands) := by
  induction operands generalizing running with
  | nil => exact tie.pure trivial
  | cons expression rest ih =>
      refine tie.bind (hev expression List.mem_cons_self) fun value _ => ?_
      refine tie.bind (tie.ofStep fun _ => grounded_of_accept)
        fun running _ => ?_
      exact ih (fun other hother => hev other (List.mem_cons_of_mem _ hother)) running

theorem multiplyInto_holds (running : RunningTotal) :
    tie.Holds (fun _ => True) (multiplyInto left running operands)
      (multiplyInto right running operands) := by
  induction operands generalizing running with
  | nil => exact tie.pure trivial
  | cons expression rest ih =>
      refine tie.bind (hev expression List.mem_cons_self) fun value _ => ?_
      refine tie.bind (tie.ofStep fun _ => grounded_of_accept)
        fun running _ => ?_
      split
      · exact tie.pure trivial
      · exact ih (fun other hother => hev other (List.mem_cons_of_mem _ hother)) running

theorem ascendThrough_holds (ascent : Ascent) :
    tie.Holds (fun _ => True) (ascendThrough left ascent operands)
      (ascendThrough right ascent operands) := by
  induction operands generalizing ascent with
  | nil => exact tie.pure trivial
  | cons expression rest ih =>
      refine tie.bind (hev expression List.mem_cons_self) fun value _ => ?_
      refine tie.bind (tie.ofStep fun _ => grounded_of_next)
        fun ascent _ => ?_
      split
      · exact ih (fun other hother => hev other (List.mem_cons_of_mem _ hother)) ascent
      · exact tie.pure trivial

/-! ## Operators -/

section

variable (hclosed : Closed Good)

include hclosed

theorem evalAdd_holds : tie.Holds Good (evalAdd left operands) (evalAdd right operands) :=
  tie.bind (addInto_holds tie hev .sum) fun running _ => tie.pure (hclosed.finish running)

theorem evalSubtract_holds (h : 2 ≤ operands.length) :
    tie.Holds Good (evalSubtract left operands) (evalSubtract right operands) := by
  refine evaluated_holds tie hev (by omega) fun value _ => ?_
  refine tie.bind (tie.ofStep fun _ => grounded_of_accept)
    fun running _ => ?_
  refine tie.bind (operandsFrom_holds tie (by omega)) fun rest hrest => ?_
  refine tie.bind (addInto_holds tie (fun other hother => hev other (hrest other hother)) _)
    fun running _ => ?_
  exact tie.pure (hclosed.finish _)

theorem evalMultiply_holds :
    tie.Holds Good (evalMultiply left operands) (evalMultiply right operands) :=
  tie.bind (multiplyInto_holds tie hev .product) fun running _ =>
    tie.pure (hclosed.finish running)

theorem evalDivide_holds (h : 2 ≤ operands.length) :
    tie.Holds Good (evalDivide left operands) (evalDivide right operands) := by
  refine evaluated_holds tie hev (by omega) fun value _ => ?_
  refine tie.bind (tie.ofStep fun _ => grounded_of_accept)
    fun dividend _ => ?_
  refine tie.bind (operandsFrom_holds tie (by omega)) fun rest hrest => ?_
  refine tie.bind
    (multiplyInto_holds tie (fun other hother => hev other (hrest other hother)) _)
    fun divisor _ => ?_
  split
  · exact tie.fail .divisionByZero
  · exact tie.pure (hclosed.finish _)

theorem evalCeiling_holds (h : operands.length = 1) :
    tie.Holds Good (evalCeiling left operands) (evalCeiling right operands) :=
  evaluated_holds tie hev (by omega) fun _ _ =>
    tie.ofExcept (fun _ => good_of_rounded hclosed) fun _ => grounded_of_rounded

theorem evalFloor_holds (h : operands.length = 1) :
    tie.Holds Good (evalFloor left operands) (evalFloor right operands) :=
  evaluated_holds tie hev (by omega) fun _ _ =>
    tie.ofExcept (fun _ => good_of_rounded hclosed) fun _ => grounded_of_rounded

theorem evalLess_holds : tie.Holds Good (evalLess left operands) (evalLess right operands) :=
  tie.bind (ascendThrough_holds tie hev .start) fun _ _ => tie.pure (hclosed.truth _)

theorem evalNegation_holds (h : operands.length = 1) :
    tie.Holds Good (evalNegation left operands) (evalNegation right operands) :=
  evaluated_holds tie hev (by omega) fun _ _ => tie.pure (hclosed.truth _)

theorem evalChoice_holds (h : 2 ≤ operands.length) :
    tie.Holds Good (evalChoice left operands) (evalChoice right operands) := by
  refine evaluated_holds tie hev (by omega) fun value _ => ?_
  split
  · split
    · next alternative halternative =>
        exact hev alternative (List.mem_of_getElem? halternative)
    · exact tie.pure hclosed.empty
  · exact tie.bind (operand_holds tie hev (by omega)) fun _ hholds => hholds

theorem evalCons_holds (h : operands.length = 2) :
    tie.Holds Good (evalCons left operands) (evalCons right operands) := by
  refine evaluated_holds tie hev (by omega) fun tail htail => ?_
  split
  · next hlist =>
      exact evaluated_holds tie hev (by omega) fun head hhead =>
        tie.pure (hclosed.pair hhead htail hlist)
  · next hlist =>
      refine tie.fail (grounded_mismatch (.inl rfl) fun hkind => hlist ?_)
      cases tail with
      | pair => rfl
      | int | real | symbol | empty => cases hkind

theorem evalCar_holds (h : operands.length = 1) :
    tie.Holds Good (evalCar left operands) (evalCar right operands) :=
  evaluated_holds tie hev (by omega) fun _ hvalue =>
    tie.bind
      (tie.ofExcept (P := fun halves => Good halves.1)
        (fun _ hsplit => hclosed.car (eq_pair_of_split hsplit ▸ hvalue))
        fun _ => grounded_of_split hvalue)
      fun _ hhalves => tie.pure hhalves

theorem evalCdr_holds (h : operands.length = 1) :
    tie.Holds Good (evalCdr left operands) (evalCdr right operands) :=
  evaluated_holds tie hev (by omega) fun _ hvalue =>
    tie.bind
      (tie.ofExcept (P := fun halves => Good halves.2)
        (fun _ hsplit => hclosed.cdr (eq_pair_of_split hsplit ▸ hvalue))
        fun _ => grounded_of_split hvalue)
      fun _ hhalves => tie.pure hhalves

theorem evalNullp_holds (h : operands.length = 1) :
    tie.Holds Good (evalNullp left operands) (evalNullp right operands) :=
  evaluated_holds tie hev (by omega) fun _ _ => tie.pure (hclosed.truth _)

theorem evalDefine_holds (h : operands.length = 2)
    (hgood : ∀ expression ∈ operands, Good expression) (hname : Good (.symbol "define")) :
    tie.Holds Good (evalDefine left operands) (evalDefine right operands) := by
  refine tie.bind (operand_holds tie hgood (by omega)) fun target htarget => ?_
  refine tie.bind (tie.ofExcept (P := fun name => Good (.symbol name)) (fun name hname => ?_)
    fun _ => grounded_of_asSymbol) fun name hsymbol => ?_
  · cases target with
    | symbol =>
        cases hname
        exact htarget
    | int | real | pair | empty => cases hname
  refine tie.bind (tie.ofExcept (P := fun _ => Operator.ofName? name = none) (fun _ hfree => ?_)
    fun _ => grounded_of_checkDefinable) fun _ hfree => ?_
  · rw [Environment.checkDefinable] at hfree
    split at hfree
    · cases hfree
    · next hnone => exact hnone
  refine evaluated_holds tie hev (by omega) fun value hvalue => ?_
  exact tie.bind (tie.define hname hsymbol hfree hvalue) fun _ _ => tie.pure hclosed.empty

theorem evalPrint_holds (h : operands.length = 1) (hname : Good (.symbol "print")) :
    tie.Holds Good (evalPrint left operands) (evalPrint right operands) :=
  evaluated_holds tie hev (by omega) fun value hvalue =>
    tie.bind
      (tie.ofExcept (P := fun text => value.render = .ok text) (fun _ htext => htext)
        fun _ => grounded_of_render hvalue)
      fun _ htext =>
        tie.bind (tie.emitLine hname hvalue htext) fun _ _ => tie.pure hclosed.empty

end

theorem evalEval_holds (h : operands.length = 1)
    (hany : ∀ value, Good value → tie.Holds Good (left value) (right value)) :
    tie.Holds Good (evalEval left operands) (evalEval right operands) :=
  evaluated_holds tie hev (by omega) hany

end

/-- An operator corresponds to itself if the evaluation of its operands does,
and in the case of `eval` the evaluation of their values too. -/
theorem run_holds (hclosed : Closed Good) {operator : Operator}
    (hcount : operator.arity.accepts operands.length = true)
    (hname : Good (.symbol operator.name))
    (hgood : ∀ expression ∈ operands, Good expression)
    (hev : ∀ expression ∈ operands, tie.Holds Good (left expression) (right expression))
    (hany : operator = .eval →
      ∀ value, Good value → tie.Holds Good (left value) (right value)) :
    tie.Holds Good (operator.run left operands) (operator.run right operands) := by
  cases operator <;> simp [arity, Arity.accepts] at hcount
  case add => exact evalAdd_holds tie hev hclosed
  case subtract => exact evalSubtract_holds tie hev hclosed hcount
  case multiply => exact evalMultiply_holds tie hev hclosed
  case divide => exact evalDivide_holds tie hev hclosed hcount
  case ceiling => exact evalCeiling_holds tie hev hclosed hcount
  case floor => exact evalFloor_holds tie hev hclosed hcount
  case less => exact evalLess_holds tie hev hclosed
  case negation => exact evalNegation_holds tie hev hclosed hcount
  case choice => exact evalChoice_holds tie hev hclosed hcount.1
  case quote => exact operand_holds tie hgood (by omega)
  case cons => exact evalCons_holds tie hev hclosed hcount
  case car => exact evalCar_holds tie hev hclosed hcount
  case cdr => exact evalCdr_holds tie hev hclosed hcount
  case nullp => exact evalNullp_holds tie hev hclosed hcount
  case define => exact evalDefine_holds tie hev hclosed hcount hgood hname
  case print => exact evalPrint_holds tie hev hclosed hcount hname
  case eval => exact evalEval_holds tie hev hcount (hany rfl)

end Operator

/-! ## Steps and evaluations -/

theorem apply_holds (hclosed : Closed Good) {head arguments : Value}
    (hgood : Good (.pair head arguments))
    (hev : ∀ expression ∈ arguments.elements, tie.Holds Good (left expression) (right expression))
    (hany : head = .symbol Operator.eval.name →
      ∀ value, Good value → tie.Holds Good (left value) (right value)) :
    tie.Holds Good (apply left head arguments) (apply right head arguments) := by
  cases head with
  | symbol name =>
      simp only [apply]
      split
      · next entry hentry =>
          refine tie.bind (tie.ofExcept (fun _ hok => operands_eq_ok hentry hok)
            fun _ => grounded_of_operands hgood hentry) fun operands hoperands => ?_
          obtain ⟨rfl, hcount⟩ := hoperands
          have hname := (OperatorTable.find?_standard_eq_some hentry).1
          refine Operator.run_holds tie hclosed hcount (hname ▸ hclosed.car hgood)
            (hclosed.elements (hclosed.cdr hgood)) hev fun heval => hany ?_
          rw [← hname, heval]
      · next hnone => exact tie.fail (.unknownOperator hnone)
  | int | real | pair | empty => exact tie.fail (.notAnOperator (by simp [Value.kind]))

/-- One step corresponds if the evaluations it makes do. -/
theorem step_holds (hclosed : Closed Good)
    (hany : ∀ value, Good value → tie.Holds Good (left value) (right value))
    {expression : Value} (hgood : Good expression) :
    tie.Holds Good (step left expression) (step right expression) := by
  cases expression with
  | pair head arguments =>
      have helements := hclosed.elements (hclosed.cdr hgood)
      exact apply_holds tie hclosed hgood (fun other hother => hany other (helements other hother))
        fun _ => hany
  | symbol name => exact tie.lookup hgood
  | int | real | empty => exact tie.pure hgood

/-- An evaluation corresponds to itself, whatever the fuel, if running out of
fuel does. -/
theorem eval_holds (hclosed : Closed Good)
    (hfuel : ∀ {α : Type} {P : α → Prop},
      tie.Holds P (fun _ => .outOfFuel) (fun _ => .outOfFuel))
    (fuel : Nat) : ∀ expression, Good expression →
      tie.Holds Good (eval fuel expression) (eval fuel expression) := by
  induction fuel with
  | zero => exact fun _ _ => hfuel
  | succ fuel ih => exact fun _ hgood => step_holds tie hclosed ih hgood

end Sexpr
