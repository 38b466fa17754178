import Mathlib.Data.List.Chain
import Sexpr.Proofs.Feeding

/-!
# Feeding a mixture

Values that are no numbers may stand anywhere among those that are fed to a total or to an
ascent. Each of them is turned away and told its kind, and that is all: the state does not
move, so the rest is fed to the state that the numbers before have made. In the end there is
the state that the numbers alone would have made (`feedLast_filter`).

What is left to say is said of numbers. A total stays an integer as long as it takes no
real. An ascent holds if every number is less than the next one, and that can be seen one
number at a time because the last one is remembered even where the ascent is broken.
-/

namespace Sexpr

/-! ## Any step -/

section

variable {σ : Type} {step : σ → Value → Except Error Unit × σ} {start : σ}

theorem length_feed (values : List Value) : (feed step start values).length = values.length := by
  induction values generalizing start with
  | nil => rfl
  | cons value rest ih => exact congrArg Nat.succ ih

/-- What is told of a value is what its step says in the state that the values before it
have made. -/
theorem getElem?_feed (values : List Value) {i : Nat} (hi : i < values.length) :
    (feed step start values)[i]? =
      some ((step (feedLast step start (values.take i)) values[i]).1,
        feedLast step start (values.take (i + 1))) := by
  induction values generalizing start i with
  | nil => exact absurd hi (Nat.not_lt_zero i)
  | cons value rest ih =>
      cases i with
      | zero => rfl
      | succ i => exact ih (Nat.lt_of_succ_lt_succ hi)

end

/-! ## Steps that take numbers -/

/-- A step takes every number. It turns everything else away with its kind, and when it
has failed it has left the state as it was. -/
structure TakesNumbers {σ : Type} (step : σ → Value → Except Error Unit × σ) : Prop where
  takes : ∀ (state : σ) (value : Value), value.isNumber = true →
    ∃ next, step state value = (.ok (), next)
  refuses : ∀ (state : σ) (value : Value), value.isNumber = false →
    ∃ next, step state value = (.error (.notNumeric value.kind), next)
  keeps : ∀ {state next : σ} {value : Value} {error : Error},
    step state value = (.error error, next) → next = state

theorem RunningTotal.takesNumbers (combine : Float → Float → Float) :
    TakesNumbers (RunningTotal.accept combine) where
  takes running _ h := exists_accept h combine running
  refuses _ _ h := ⟨_, accept_of_number_error (Value.number_of_not_number h)⟩
  keeps := eq_of_accept_error

theorem Ascent.takesNumbers : TakesNumbers Ascent.next where
  takes ascent value h := by
    obtain ⟨x, hx⟩ := Value.isNumber_iff.1 h
    obtain ⟨above, habove⟩ := next_of_number hx ascent
    exact ⟨_, habove⟩
  refuses _ _ h := ⟨_, next_of_number_error (Value.number_of_not_number h)⟩
  keeps := eq_of_next_error

/-- How values are fed one by one, and no step makes a difference but those of numbers. -/
structure FedNumbers {σ : Type} (step : σ → Value → Except Error Unit × σ) (start : σ)
    (values : List Value) : Prop where
  length_eq : (feed step start values).length = values.length
  /-- A step fails exactly where there is no number, and says of what kind the value is. -/
  getElem?_eq : ∀ (i : Nat) (hi : i < values.length), (feed step start values)[i]? =
    some (if values[i].isNumber then .ok () else .error (.notNumeric values[i].kind),
      feedLast step start (values.take (i + 1)))
  /-- A step that fails leaves the state as it is. -/
  unchanged : ∀ (i : Nat) (hi : i < values.length), values[i].isNumber = false →
    feedLast step start (values.take (i + 1)) = feedLast step start (values.take i)
  /-- In the end it is as if only the numbers had been fed. -/
  last : feedLast step start values = feedLast step start (values.filter Value.isNumber)

namespace TakesNumbers

variable {σ : Type} {step : σ → Value → Except Error Unit × σ}

/-- A value that is turned away changes nothing. -/
theorem refused (h : TakesNumbers step) (state : σ) {value : Value}
    (hvalue : value.isNumber = false) :
    step state value = (.error (.notNumeric value.kind), state) := by
  obtain ⟨next, hnext⟩ := h.refuses state value hvalue
  rw [hnext, h.keeps hnext]

theorem feedLast_filter (h : TakesNumbers step) (start : σ) (values : List Value) :
    feedLast step start values = feedLast step start (values.filter Value.isNumber) := by
  induction values generalizing start with
  | nil => rfl
  | cons value rest ih =>
      cases hvalue : value.isNumber with
      | true =>
          obtain ⟨next, hnext⟩ := h.takes start value hvalue
          rw [List.filter_cons_of_pos hvalue, feedLast_cons hnext, feedLast_cons hnext, ih]
      | false =>
          rw [List.filter_cons_of_neg (by rw [hvalue]; exact Bool.false_ne_true),
            feedLast_cons (h.refused start hvalue), ih]

theorem fedNumbers (h : TakesNumbers step) (start : σ) (values : List Value) :
    FedNumbers step start values where
  length_eq := length_feed values
  getElem?_eq i hi := by
    rw [getElem?_feed values hi]
    cases hvalue : values[i].isNumber with
    | true =>
        obtain ⟨next, hnext⟩ := h.takes (feedLast step start (values.take i)) values[i] hvalue
        rw [hnext]
        rfl
    | false =>
        rw [h.refused _ hvalue]
        rfl
  unchanged i hi hvalue := by
    rw [List.take_succ_eq_append_getElem hi, feedLast_append,
      feedLast_cons (h.refused _ hvalue)]
    rfl
  last := h.feedLast_filter start values

end TakesNumbers

/-! ## What the numbers make -/

/-- The numbers among values, as floats. -/
def numbers (values : List Value) : List Float :=
  values.filterMap fun value => value.number.toOption

/-- A total is an integer in the end if it began as one and there was no real. -/
theorem RunningTotal.isInt_feedLast_iff (combine : Float → Float → Float)
    (running : RunningTotal) (values : List Value) :
    (feedLast (accept combine) running values).isInt = true ↔
      running.isInt = true ∧ ∀ value ∈ values, value.kind ≠ .real := by
  have hnumbers : ∀ value ∈ values.filter Value.isNumber, value.isNumber = true :=
    fun value hvalue => (List.mem_filter.1 hvalue).2
  rw [(takesNumbers combine).feedLast_filter, isInt_feedLast hnumbers]
  refine and_congr_right fun _ => forall_congr' fun value => ?_
  rw [List.mem_filter]
  cases value <;> simp [Value.isNumber, Value.kind]

theorem numbers_cons_of_number {value : Value} {x : Float} (h : value.number = .ok x)
    (rest : List Value) : numbers (value :: rest) = x :: numbers rest :=
  List.filterMap_cons_some (by rw [h]; rfl)

theorem numbers_cons_of_error {value : Value} {error : Error} (h : value.number = .error error)
    (rest : List Value) : numbers (value :: rest) = numbers rest :=
  List.filterMap_cons_none (by rw [h]; rfl)

namespace Ascent

/-- An ascent holds in the end if it held and goes on ascending from the last number. -/
theorem holds_feedLast_iff (ascent : Ascent) (values : List Value) :
    (feedLast next ascent values).holds = true ↔
      ascent.holds = true ∧ (ascent.last.toList ++ numbers values).IsChain (· < ·) := by
  induction values generalizing ascent with
  | nil =>
      have hshort : (ascent.last.toList ++ numbers []).IsChain (· < ·) := by
        cases ascent.last with
        | none => exact .nil
        | some last => exact .singleton last
      exact (and_iff_left hshort).symm
  | cons value rest ih =>
      cases hvalue : value.number with
      | error error =>
          rw [feedLast_cons (next_of_number_error hvalue), numbers_cons_of_error hvalue, ih]
      | ok x =>
          rw [numbers_cons_of_number hvalue]
          cases hlast : ascent.last with
          | none =>
              have hnext : ascent.next value = (.ok (), ⟨ascent.holds && true, some x⟩) := by
                rw [next, hvalue, hlast]
              rw [feedLast_cons hnext, ih, Bool.and_true]
              rfl
          | some last =>
              have hnext : ascent.next value =
                  (.ok (), ⟨ascent.holds && decide (last < x), some x⟩) := by
                rw [next, hvalue, hlast]
              rw [feedLast_cons hnext, ih, Bool.and_eq_true, decide_eq_true_iff, and_assoc]
              -- The new number is where the chain goes on, and how the one before it ends.
              exact and_congr_right fun _ => List.isChain_cons_cons.symm

end Ascent

/-- Values are fed to a sum, to a product or to an ascent one by one, and whatever is no
number is turned away with its kind and changes nothing. A sum or a product that began as an
integer is one in the end if and only if there was no real. An ascent holds if and only if
every number is less than the next, and once it is broken it stays so. -/
theorem feed_mixture (values : List Value) :
    (∀ running : RunningTotal,
      (FedNumbers RunningTotal.add running values ∧
        ((feedLast RunningTotal.add running values).isInt = true ↔
          running.isInt = true ∧ ∀ value ∈ values, value.kind ≠ .real)) ∧
      FedNumbers RunningTotal.multiply running values ∧
        ((feedLast RunningTotal.multiply running values).isInt = true ↔
          running.isInt = true ∧ ∀ value ∈ values, value.kind ≠ .real)) ∧
    FedNumbers Ascent.next .start values ∧
    ((feedLast Ascent.next .start values).holds = true ↔ (numbers values).IsChain (· < ·)) ∧
    ∀ i, (feedLast Ascent.next .start (values.take i)).holds = false →
      (feedLast Ascent.next .start values).holds = false := by
  have htotal : ∀ (combine : Float → Float → Float) (running : RunningTotal),
      FedNumbers (RunningTotal.accept combine) running values ∧
        ((feedLast (RunningTotal.accept combine) running values).isInt = true ↔
          running.isInt = true ∧ ∀ value ∈ values, value.kind ≠ .real) :=
    fun combine running => ⟨(RunningTotal.takesNumbers combine).fedNumbers running values,
      RunningTotal.isInt_feedLast_iff combine running values⟩
  refine ⟨fun running => ⟨htotal (· + ·) running, htotal (· * ·) running⟩,
    Ascent.takesNumbers.fedNumbers .start values, ?_, fun i hbroken => ?_⟩
  · exact (Ascent.holds_feedLast_iff .start values).trans (and_iff_right rfl)
  · rw [← List.take_append_drop i values, feedLast_append, Bool.eq_false_iff]
    intro hholds
    rw [Ascent.holds_of_feedLast hholds] at hbroken
    cases hbroken

/-- The name is passed over, so the ascent is broken by the second one. The empty list and
the two behind it do not mend it. -/
theorem feed_mixture_broken :
    (feedLast Ascent.next .start
      ([.int 1, .symbol "a", .int 1, .empty, .int 2].take 3)).holds = false ∧
    (feedLast Ascent.next .start
      [.int 1, .symbol "a", .int 1, .empty, .int 2]).holds = false := by
  have hbroken : (feedLast Ascent.next .start
      ([.int 1, .symbol "a", .int 1, .empty, .int 2].take 3)).holds = false := by
    decide +kernel
  exact ⟨hbroken, (feed_mixture _).2.2.2 3 hbroken⟩

end Sexpr
