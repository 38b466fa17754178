import Sexpr.Proofs.Batch
import Sexpr.Proofs.LenientText

/-!
# What a report says of its batch

A batch is expressions evaluated in turn, each in the session that the one before it has
left, and it makes no difference to that session whether the one before has failed. Its
configuration settles only how far it goes: to the end, or to the first failure. So there
is a list of answers behind every report, those of as many expressions as the batch has
come to (`Batch.exists_answers`), and the outcomes are these answers told one by one.

Two of the things a report says besides are counted while the batch is walked, the
failures and whether it was broken off. Both can be read off the outcomes: the failures
are those among them, and a batch was broken off if it has fewer outcomes than
expressions.
-/

namespace Sexpr

/-! ## Outcomes -/

namespace Outcome

/-- An outcome tells an answer: the text of a value, lenient if need be, or what there is
to say of an error. -/
def Tells (outcome : Outcome) : Except Error Value → Prop
  | .ok result => outcome = .value result.lenient
  | .error cause => outcome = .error cause.code cause.category cause.message

theorem tells_ofAnswer (answer : Except Error Value) : (ofAnswer answer).Tells answer := by
  cases answer with
  | ok result =>
      show value result.describe = value result.lenient
      rw [Value.describe_eq_lenient]
  | error cause => rfl

end Outcome

namespace Session

/-! ## In turn -/

/-- Expressions are evaluated one after the other, each in the session that the one before
it has left, whether that one has failed or not. -/
inductive AnswerEach : Session → List Value → List (Except Error Value) → Session → Prop where
  | nil {session : Session} : AnswerEach session [] [] session
  | cons {session middle after : Session} {expression : Value} {expressions : List Value}
      {answer : Except Error Value} {answers : List (Except Error Value)}
      (first : session.Answers expression answer middle)
      (rest : AnswerEach middle expressions answers after) :
      AnswerEach session (expression :: expressions) (answer :: answers) after

variable {session after last : Session} {expressions front : List Value}
  {answers : List (Except Error Value)} {report : Report}

/-- Any one of the expressions has its answer in the session left by those before it. -/
theorem AnswerEach.answers_getElem (h : AnswerEach session expressions answers after) {i : Nat}
    (hexpression : i < expressions.length) (hanswer : i < answers.length) :
    ∃ middle next, AnswerEach session (expressions.take i) (answers.take i) middle ∧
      middle.Answers expressions[i] answers[i] next := by
  induction h generalizing i with
  | nil => exact absurd hexpression (Nat.not_lt_zero i)
  | @cons session next after expression expressions answer answers first rest ih =>
      cases i with
      | zero => exact ⟨session, next, .nil, first⟩
      | succ i =>
          obtain ⟨middle, following, hbefore, hanswers⟩ :=
            ih (Nat.lt_of_succ_lt_succ hexpression) (Nat.lt_of_succ_lt_succ hanswer)
          exact ⟨middle, following, .cons first hbefore, hanswers⟩

/-! ## How far a batch goes -/

/-- Answers with which a batch of so many expressions is over: there are no more
expressions, or there has been a failure and the batch does not go on behind one. -/
def Over (session : Session) (expressions : List Value) (answers : List (Except Error Value)) :
    Prop :=
  answers.length = expressions.length ∨
    session.config.continueOnError = false ∧ ∃ error, .error error ∈ answers

/-- The outcomes of a batch are the answers of the expressions that it has come to. -/
theorem Batch.exists_answers (h : Batch session expressions report after) :
    ∃ answers, AnswerEach session (expressions.take answers.length) answers after ∧
      report.outcomes = answers.map Outcome.ofAnswer ∧ session.Over expressions answers := by
  induction h with
  | nil => exact ⟨[], .nil, rfl, .inl rfl⟩
  | @next session middle after expression rest answer report hanswer _ _ ih =>
      obtain ⟨answers, hanswers, houtcomes, hover⟩ := ih
      refine ⟨answer :: answers, .cons hanswer hanswers, ?_, ?_⟩
      · rw [Report.outcomes_single_append, houtcomes, List.map_cons]
      · rcases hover with hall | ⟨hstops, error, herror⟩
        · exact .inl (congrArg Nat.succ hall)
        · rw [hanswer.config_eq] at hstops
          exact .inr ⟨hstops, error, List.mem_cons_of_mem _ herror⟩
  | @stop session after expression rest error hanswer hstops =>
      exact ⟨[.error error], .cons hanswer .nil, rfl,
        .inr ⟨hstops, error, List.mem_singleton_self _⟩⟩

/-- Nothing is asked of the expressions behind a failure that ends the batch. -/
theorem AnswerEach.exists_batch (h : AnswerEach session front answers last) (back : List Value)
    (hover : session.Over (front ++ back) answers) :
    ∃ report after, Batch session (front ++ back) report after := by
  induction h with
  | nil =>
      rcases hover with hall | ⟨-, error, herror⟩
      · obtain rfl : back = [] := List.length_eq_zero_iff.1 hall.symm
        exact ⟨_, _, .nil⟩
      · cases herror
  | @cons session middle last expression front answer answers first rest ih =>
      have hgoes : session.config.continueOnError = true ∨ (∃ value, answer = .ok value) →
          session.Over (front ++ back) answers →
          ∃ report after, Batch session (expression :: (front ++ back)) report after := by
        intro hproceeds hrest
        rw [Over, ← first.config_eq] at hrest
        obtain ⟨report, after, hbatch⟩ := ih hrest
        exact ⟨_, _, .next first hproceeds hbatch⟩
      rcases hover with hall | ⟨hstops, error, herror⟩
      · have hrest : session.Over (front ++ back) answers := .inl (Nat.succ.inj hall)
        cases answer with
        | ok value => exact hgoes (.inr ⟨value, rfl⟩) hrest
        | error error =>
            cases hconfig : session.config.continueOnError with
            | true => exact hgoes (.inl hconfig) hrest
            | false => exact ⟨_, _, .stop first hconfig⟩
      · cases answer with
        | ok value =>
            have herror : .error error ∈ answers := by simpa using herror
            exact hgoes (.inr ⟨value, rfl⟩) (.inr ⟨hstops, error, herror⟩)
        | error error => exact ⟨_, _, .stop first hstops⟩

/-! ## What is counted -/

theorem Batch.totalErrors_eq (h : Batch session expressions report after) :
    report.totalErrors = report.outcomes.countP Outcome.isError := by
  induction h with
  | nil => rfl
  | @next session middle after expression rest answer report _ _ _ ih =>
      rw [Report.outcomes_single_append, List.countP_cons, ← ih, Report.append]
      cases answer with
      | ok value => exact Nat.zero_add report.totalErrors
      | error error => exact Nat.add_comm 1 report.totalErrors
  | stop => rfl

theorem Batch.length_le (h : Batch session expressions report after) :
    report.outcomes.length ≤ expressions.length := by
  induction h with
  | nil => exact Nat.le_refl 0
  | next _ _ _ ih =>
      rw [Report.outcomes_single_append]
      exact Nat.succ_le_succ ih
  | stop => exact Nat.succ_le_succ (Nat.zero_le _)

theorem Batch.stoppedEarly_iff (h : Batch session expressions report after) :
    report.stoppedEarly = true ↔ report.outcomes.length < expressions.length := by
  induction h with
  | nil => exact iff_of_false Bool.false_ne_true (Nat.lt_irrefl 0)
  | next _ _ _ ih =>
      rw [Report.outcomes_single_append, List.length_cons, List.length_cons,
        Nat.succ_lt_succ_iff]
      exact ih
  | @stop session after expression rest error _ _ =>
      -- One outcome stands for the failure, so whatever is left has none.
      cases rest with
      | nil => exact iff_of_false Bool.false_ne_true (Nat.lt_irrefl 1)
      | cons next rest => exact iff_of_true rfl (Nat.succ_lt_succ (Nat.succ_pos _))

theorem Batch.length_eq_of_continueOnError (h : Batch session expressions report after)
    (hgoes : session.config.continueOnError = true) :
    report.outcomes.length = expressions.length := by
  have hearly := h.stoppedEarly_of_continueOnError hgoes
  have hnot : ¬ report.outcomes.length < expressions.length := by
    rw [← h.stoppedEarly_iff, hearly]
    exact Bool.false_ne_true
  exact Nat.le_antisymm h.length_le (Nat.not_lt.1 hnot)

/-- A batch that does not go on behind failures has come to nothing behind the first. -/
theorem Batch.isError_of_succ_lt (h : Batch session expressions report after)
    (hstops : session.config.continueOnError = false) {i : Nat}
    (hi : i + 1 < report.outcomes.length) : report.outcomes[i].isError = false := by
  induction h generalizing i with
  | nil => exact absurd hi (Nat.not_lt_zero _)
  | @next session middle after expression rest answer report hanswer hgoes _ ih =>
      simp only [Report.outcomes_single_append, List.length_cons] at hi ⊢
      cases i with
      | zero =>
          obtain ⟨value, rfl⟩ := hgoes.resolve_left (by rw [hstops]; exact Bool.false_ne_true)
          rfl
      | succ i => exact ih (by rw [hanswer.config_eq, hstops]) (Nat.lt_of_succ_lt_succ hi)
  | stop => exact absurd (Nat.lt_of_succ_lt_succ hi) (Nat.not_lt_zero i)

/-! ## Reports -/

/-- A report says of a batch, and of the session that it has left, what is so. -/
structure Faithful (session : Session) (expressions : List Value) (report : Report)
    (after : Session) : Prop where
  /-- Every outcome tells the answer of its expression, evaluated in the session that the
  expressions before it have left, those that failed included. -/
  outcomes : ∀ (i : Nat) (hi : i < report.outcomes.length),
    ∃ (hexpression : i < expressions.length) (answers : List (Except Error Value))
      (middle : Session) (answer : Except Error Value) (next : Session),
      AnswerEach session (expressions.take i) answers middle ∧
        middle.Answers expressions[i] answer next ∧ report.outcomes[i].Tells answer
  /-- The session is left as the expressions with an outcome have left it. -/
  left : ∃ answers, AnswerEach session (expressions.take report.outcomes.length) answers after
  totalErrors : report.totalErrors = report.outcomes.countP Outcome.isError
  length_le : report.outcomes.length ≤ expressions.length
  stoppedEarly : report.stoppedEarly = true ↔ report.outcomes.length < expressions.length
  /-- A batch that goes on behind failures comes to its end. -/
  all : session.config.continueOnError = true → report.outcomes.length = expressions.length
  /-- In a batch that does not go on only the last outcome may be an error. -/
  last : session.config.continueOnError = false →
    ∀ (i : Nat) (_ : i + 1 < report.outcomes.length), report.outcomes[i].isError = false

theorem Batch.faithful (h : Batch session expressions report after) :
    session.Faithful expressions report after := by
  obtain ⟨answers, hanswers, houtcomes, -⟩ := h.exists_answers
  have hlength : report.outcomes.length = answers.length := by rw [houtcomes, List.length_map]
  have hle := h.length_le
  refine ⟨fun i hi => ?_, ⟨answers, by rwa [hlength]⟩, h.totalErrors_eq, hle, h.stoppedEarly_iff,
    h.length_eq_of_continueOnError, fun hstops i => h.isError_of_succ_lt hstops⟩
  have hanswer : i < answers.length := hlength ▸ hi
  obtain ⟨middle, next, hbefore, hanswers⟩ :=
    hanswers.answers_getElem (by rw [List.length_take]; omega) hanswer
  rw [List.take_take, Nat.min_eq_left (Nat.le_of_lt hanswer)] at hbefore
  rw [List.getElem_take] at hanswers
  refine ⟨by omega, _, middle, answers[i], next, hbefore, hanswers, ?_⟩
  simp only [houtcomes, List.getElem_map]
  exact Outcome.tells_ofAnswer _

/-- A batch has a report if and only if every expression returns that it comes to: all of
them, or those up to a failure if it does not go on behind one. Whatever its report says is
so. -/
theorem reports_faithful (session : Session) (expressions : List Value) :
    ((∃ report after, session.Reports expressions report after) ↔
      ∃ answers last, AnswerEach session (expressions.take answers.length) answers last ∧
        session.Over expressions answers) ∧
    ∀ report after, session.Reports expressions report after →
      session.Faithful expressions report after := by
  simp only [reports_iff_batch]
  refine ⟨⟨?_, ?_⟩, fun report after h => h.faithful⟩
  · rintro ⟨report, after, h⟩
    obtain ⟨answers, hanswers, -, hover⟩ := h.exists_answers
    exact ⟨answers, after, hanswers, hover⟩
  · rintro ⟨answers, last, hanswers, hover⟩
    have hwhole := hanswers.exists_batch (expressions.drop answers.length)
    rw [List.take_append_drop] at hwhole
    exact hwhole hover

/-- A value without a canonical text is told by its lenient one. The failure at `y` ends the
batch, so nothing is printed. -/
theorem reports_faithful_dotted :
    (start ⟨true, false⟩).Reports
      [.list [.symbol "define", .symbol "x", .int 2],
        .list [.symbol "quote", .pair (.int 1) (.int 2)], .symbol "y",
        .list [.symbol "print", .int 1]]
      ⟨[.value "()", .value "(1 . 2)", .ofAnswer (.error (.unboundSymbol "y"))], 1, true⟩
      ⟨⟨true, false⟩, ⟨NameMap.empty.insert "x" (.int 2)⟩, .captured .unbounded⟩ ∧
    (start ⟨true, false⟩).Faithful
      [.list [.symbol "define", .symbol "x", .int 2],
        .list [.symbol "quote", .pair (.int 1) (.int 2)], .symbol "y",
        .list [.symbol "print", .int 1]]
      ⟨[.value "()", .value "(1 . 2)", .ofAnswer (.error (.unboundSymbol "y"))], 1, true⟩
      ⟨⟨true, false⟩, ⟨NameMap.empty.insert "x" (.int 2)⟩, .captured .unbounded⟩ := by
  have h : (start ⟨true, false⟩).Reports
      [.list [.symbol "define", .symbol "x", .int 2],
        .list [.symbol "quote", .pair (.int 1) (.int 2)], .symbol "y",
        .list [.symbol "print", .int 1]]
      ⟨[.value "()", .value "(1 . 2)", .ofAnswer (.error (.unboundSymbol "y"))], 1, true⟩
      ⟨⟨true, false⟩, ⟨NameMap.empty.insert "x" (.int 2)⟩, .captured .unbounded⟩ := ⟨3, rfl⟩
  exact ⟨h, (reports_faithful _ _).2 _ _ h⟩

end Session

end Sexpr
