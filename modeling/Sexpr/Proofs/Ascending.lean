import Mathlib.Data.List.Chain
import Sexpr.Proofs.FloatOrder
import Sexpr.Proofs.IntegerArithmetic

/-!
# Which integers ascend

`<` remembers the number before as a float and compares the next one with it as
a float, so integers ascend for it if the floats nearest to them do. Rounding turns
no order round. Where `<` says that integers ascend it is right, and where it says
that they do not, either they do not or two neighbours have become equal.
-/

namespace Sexpr

open Binary64

/-- An integer is rounded to a lesser number than another one is. -/
def RoundedBelow (a b : Int64) : Prop :=
  nearest a.toInt < nearest b.toInt

instance : DecidableRel RoundedBelow :=
  fun a b => inferInstanceAs (Decidable (nearest a.toInt < nearest b.toInt))

theorem roundedBelow_iff {a b : Int64} :
    RoundedBelow a b ↔ a < b ∧ nearest a.toInt ≠ nearest b.toInt := by
  rw [RoundedBelow, nearest_lt_nearest_iff, Int.cast_lt, Int64.lt_iff_toInt_lt]

/-- Integers ascend when rounded if they ascend and no two neighbours become equal. -/
theorem isChain_roundedBelow_iff {numbers : List Int64} :
    numbers.IsChain RoundedBelow ↔ numbers.IsChain (· < ·) ∧
      numbers.IsChain fun a b => nearest a.toInt ≠ nearest b.toInt := by
  induction numbers with
  | nil => simp
  | cons number rest ih =>
      cases rest with
      | nil => simp
      | cons next rest =>
          simp only [List.isChain_cons_cons, ih, roundedBelow_iff]
          exact and_and_and_comm

/-! ## The chain so far -/

section

variable (fuel : Nat) (last : Int64) (machine : Machine)

/-- One integer more, behind the last one. -/
theorem next_integer (number : Int64) :
    Ascent.next ⟨true, some (floatOfInt last)⟩ (.int number) =
      (.ok (), ⟨decide (RoundedBelow last number), some (floatOfInt number)⟩) := by
  have hless : decide (floatOfInt last < floatOfInt number) = decide (RoundedBelow last number) :=
    decide_eq_decide.2 (floatOfInt_lt_iff last number)
  rw [← hless]
  rfl

theorem ascendThrough_integers (numbers : List Int64) :
    ∃ final, Operator.ascendThrough (eval (fuel + 1)) ⟨true, some (floatOfInt last)⟩
      (numbers.map .int) machine =
        .done (.ok ⟨decide ((last :: numbers).IsChain RoundedBelow), final⟩) machine := by
  induction numbers generalizing last with
  | nil => exact ⟨_, rfl⟩
  | cons number rest ih =>
      have hstep : Operator.ascendThrough (eval (fuel + 1)) ⟨true, some (floatOfInt last)⟩
          ((number :: rest).map .int) machine =
            (Action.ofStep (Ascent.next ⟨true, some (floatOfInt last)⟩ (.int number)) >>=
              fun ascent => if ascent.holds then
                Operator.ascendThrough (eval (fuel + 1)) ascent (rest.map .int)
              else pure ascent) machine :=
        rfl
      rw [hstep, next_integer]
      by_cases hbelow : RoundedBelow last number
      · obtain ⟨final, hrest⟩ := ih number
        refine ⟨final, ?_⟩
        simp only [List.isChain_cons_cons, hbelow, true_and, decide_true]
        exact hrest
      · -- The integers behind are not looked at, and the chain is broken already.
        refine ⟨some (floatOfInt number), ?_⟩
        simp only [List.isChain_cons_cons, hbelow, false_and, decide_false]
        rfl

end

/-- `<` answers one for integers if they ascend and no two neighbours are rounded to
the same number, which happens only to integers of more than 53 bits that lie close
together; otherwise it answers zero. -/
theorem returns_ascending (numbers : List Int64) (machine : Machine) :
    Returns (application .less (numbers.map .int)) machine
      (.ok (.truth (decide (numbers.IsChain (· < ·) ∧
        numbers.IsChain fun a b => nearest a.toInt ≠ nearest b.toInt)))) machine ∧
    ∀ a b : Int64, a < b → nearest a.toInt = nearest b.toInt →
      (2 ^ 53 < |a.toInt| ∨ 2 ^ 53 < |b.toInt|) ∧ b.toInt - a.toInt ≤ 1024 := by
  refine ⟨returns_application rfl ?_, fun a b => close_of_nearest_eq⟩
  rw [← decide_eq_decide.2 isChain_roundedBelow_iff]
  cases numbers with
  | nil => rfl
  | cons first rest =>
      obtain ⟨final, hrun⟩ := ascendThrough_integers 0 first machine rest
      exact Action.bind_of_done hrun

/-- The second integer of 54 bits is rounded to the first, so the two ascend and `<` says
that they do not. -/
theorem returns_ascending_rounded :
    Returns (application .less [.int 9007199254740992, .int 9007199254740993])
      ⟨.empty, .unbounded⟩ (.ok (.int 0)) ⟨.empty, .unbounded⟩ ∧
    nearest (9007199254740992 : Int64).toInt = nearest (9007199254740993 : Int64).toInt ∧
    (2 ^ 53 < |(9007199254740992 : Int64).toInt| ∨ 2 ^ 53 < |(9007199254740993 : Int64).toInt|) ∧
    (9007199254740993 : Int64).toInt - (9007199254740992 : Int64).toInt ≤ 1024 := by
  have hsame : nearest (9007199254740992 : Int64).toInt =
      nearest (9007199254740993 : Int64).toInt := by
    refine le_antisymm (nearest_mono (Int.cast_le.2 (by decide))) (not_lt.1 ?_)
    rw [← floatOfInt_lt_iff]
    decide +kernel
  obtain ⟨hless, hclose⟩ :=
    returns_ascending [9007199254740992, 9007199254740993] ⟨.empty, .unbounded⟩
  have hcollapsed : ¬ ([9007199254740992, 9007199254740993] : List Int64).IsChain
      fun a b => nearest a.toInt ≠ nearest b.toInt :=
    fun h => (List.isChain_cons_cons.1 h).1 hsame
  rw [decide_eq_false (not_and_of_not_right _ hcollapsed)] at hless
  exact ⟨hless, hsame, hclose _ _ (by decide) hsame⟩

/-- So `(< 9007199254740992 9007199254740993)` is answered with zero. -/
theorem returns_less_not_ascending :
    (9007199254740992 : Int64) < 9007199254740993 ∧
    Returns (application .less [.int 9007199254740992, .int 9007199254740993])
      ⟨.empty, .unbounded⟩ (.ok (.int 0)) ⟨.empty, .unbounded⟩ ∧
    ¬ Returns (application .less [.int 9007199254740992, .int 9007199254740993])
      ⟨.empty, .unbounded⟩ (.ok (.int 1)) ⟨.empty, .unbounded⟩ := by
  have hzero : Returns (application .less [.int 9007199254740992, .int 9007199254740993])
      ⟨.empty, .unbounded⟩ (.ok (.int 0)) ⟨.empty, .unbounded⟩ := ⟨2, rfl⟩
  refine ⟨by decide, hzero, fun hone => ?_⟩
  have hsame := (returns_unique hzero hone).1
  exact absurd (Value.int.inj (Except.ok.inj hsame)) (by decide)

end Sexpr
