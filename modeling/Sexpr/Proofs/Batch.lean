import Sexpr.Proofs.Returns
import Sexpr.Session.Basic

/-!
# Batches

`Session.evalAll` walks a batch with the outcomes so far, the last one first, and
a count of the failures so far. None of this is of any concern to the expressions
that are still to come: they are evaluated in the session that the ones before
them have left, and what is reported of them stands behind what was reported
before. So a batch can be told without what has been gathered on the way, one
expression and then the rest (`Session.Batch`), and everything about batches is
an induction on that.

The one thing the walk asks of the rest of a batch is whether there is any, when a
failure ends it. That is where a batch and a part of it differ: a failure of the
last expression in the first part of a batch has not stopped that part early, but
it has stopped the batch early if there is a second part.
-/

namespace Sexpr

namespace Session

/-! ## One expression -/

/-- The session that an evaluation leaves. -/
def moved (session : Session) (machine : Machine) : Session :=
  { session with
    environment := machine.environment
    channel := session.channel.withSink machine.sink }

/-- A session evaluates an expression, with this answer, and is left like this. -/
def Answers (session : Session) (expression : Value) (answer : Except Error Value)
    (after : Session) : Prop :=
  ∃ fuel, session.eval fuel expression = .done answer after

variable {session middle after : Session} {expression : Value} {answer : Except Error Value}

theorem eval_eq_done_iff {fuel : Nat} :
    session.eval fuel expression = .done answer after ↔
      ∃ machine, Sexpr.eval fuel expression ⟨session.environment, session.channel.sink⟩ =
        .done answer machine ∧ after = session.moved machine := by
  rw [eval]
  constructor
  · intro h
    split at h
    · next result machine hrun =>
        cases h
        exact ⟨machine, hrun, rfl⟩
    · cases h
    · cases h
  · rintro ⟨machine, hrun, rfl⟩
    rw [hrun]
    rfl

theorem answers_iff :
    session.Answers expression answer after ↔
      ∃ machine, Returns expression ⟨session.environment, session.channel.sink⟩ answer machine ∧
        after = session.moved machine := by
  constructor
  · rintro ⟨fuel, h⟩
    obtain ⟨machine, hrun, hafter⟩ := eval_eq_done_iff.1 h
    exact ⟨machine, ⟨fuel, hrun⟩, hafter⟩
  · rintro ⟨machine, ⟨fuel, hrun⟩, hafter⟩
    exact ⟨fuel, eval_eq_done_iff.2 ⟨machine, hrun, hafter⟩⟩

theorem eval_mono {fuel more : Nat} (hle : fuel ≤ more)
    (h : session.eval fuel expression = .done answer after) :
    session.eval more expression = .done answer after := by
  obtain ⟨machine, hrun, hafter⟩ := eval_eq_done_iff.1 h
  exact eval_eq_done_iff.2 ⟨machine, Sexpr.eval_mono hle hrun, hafter⟩

theorem Answers.config_eq (h : session.Answers expression answer after) :
    after.config = session.config := by
  obtain ⟨machine, -, rfl⟩ := answers_iff.1 h
  rfl

theorem Answers.unique {other : Except Error Value} {later : Session}
    (h : session.Answers expression answer after) (k : session.Answers expression other later) :
    answer = other ∧ after = later := by
  obtain ⟨machine, hreturns, rfl⟩ := answers_iff.1 h
  obtain ⟨final, kreturns, rfl⟩ := answers_iff.1 k
  obtain ⟨rfl, rfl⟩ := returns_unique hreturns kreturns
  exact ⟨rfl, rfl⟩

end Session

/-! ## Reports -/

namespace Report

/-- The report on a single expression behind which a batch goes on. -/
def single : Except Error Value → Report
  | .ok value => ⟨[Outcome.ofAnswer (.ok value)], 0, false⟩
  | .error error => ⟨[Outcome.ofAnswer (.error error)], 1, false⟩

/-- The report on a batch that went on where another had ended. Whether it was
broken off is up to the second. -/
def append (first second : Report) : Report :=
  ⟨first.outcomes ++ second.outcomes, first.totalErrors + second.totalErrors,
    second.stoppedEarly⟩

theorem append_assoc (first second third : Report) :
    (first.append second).append third = first.append (second.append third) := by
  simp [append, Nat.add_assoc]

theorem outcomes_single_append (answer : Except Error Value) (report : Report) :
    ((single answer).append report).outcomes = Outcome.ofAnswer answer :: report.outcomes := by
  cases answer <;> rfl

end Report

namespace Session

/-! ## One expression and then the rest -/

/-- What is reported of a batch, and the session that it leaves. -/
inductive Batch : Session → List Value → Report → Session → Prop where
  | nil {session : Session} : Batch session [] ⟨[], 0, false⟩ session
  | next {session middle after : Session} {expression : Value} {rest : List Value}
      {answer : Except Error Value} {report : Report}
      (hanswer : session.Answers expression answer middle)
      (hgoes : session.config.continueOnError = true ∨ ∃ value, answer = .ok value)
      (hrest : Batch middle rest report after) :
      Batch session (expression :: rest) ((Report.single answer).append report) after
  | stop {session after : Session} {expression : Value} {rest : List Value} {error : Error}
      (hanswer : session.Answers expression (.error error) after)
      (hstops : session.config.continueOnError = false) :
      Batch session (expression :: rest)
        ⟨[Outcome.ofAnswer (.error error)], 1, !rest.isEmpty⟩ after

/-- A batch is reported on like this, and the session is left like this. -/
def Reports (session : Session) (expressions : List Value) (report : Report)
    (after : Session) : Prop :=
  ∃ fuel, session.evalAll fuel expressions = .done report after

variable {session middle after : Session} {expressions first second : List Value}
  {report rest : Report}

theorem batch_of_evalAllFrom {fuel errors : Nat} {outcomes : List Outcome}
    (h : session.evalAllFrom fuel outcomes errors expressions = .done report after) :
    ∃ rest, Batch session expressions rest after ∧
      report = Report.append ⟨outcomes.reverse, errors, false⟩ rest := by
  induction expressions generalizing session outcomes errors with
  | nil =>
      cases h
      exact ⟨_, .nil, by simp [Report.append]⟩
  | cons expression expressions ih =>
      rw [evalAllFrom] at h
      split at h
      · next answer middle hrun =>
          have hanswer : session.Answers expression answer middle := ⟨fuel, hrun⟩
          cases answer with
          | ok value =>
              obtain ⟨rest, hrest, rfl⟩ := ih h
              exact ⟨_, .next hanswer (.inr ⟨value, rfl⟩) hrest,
                by simp [Report.append, Report.single]⟩
          | error error =>
              simp only [hanswer.config_eq] at h
              split at h
              · next hgoes =>
                  obtain ⟨rest, hrest, rfl⟩ := ih h
                  exact ⟨_, .next hanswer (.inl hgoes) hrest,
                    by simp [Report.append, Report.single, Nat.add_assoc]⟩
              · next hstops =>
                  cases h
                  exact ⟨_, .stop hanswer (by simpa using hstops), by simp [Report.append]⟩
      · cases h
      · cases h

theorem Batch.evalAllFrom (h : Batch session expressions report after) :
    ∃ fuel, ∀ more, fuel ≤ more → ∀ outcomes errors,
      session.evalAllFrom more outcomes errors expressions =
        .done (Report.append ⟨outcomes.reverse, errors, false⟩ report) after := by
  induction h with
  | nil => exact ⟨0, fun _ _ _ _ => by simp [Session.evalAllFrom, Report.append]⟩
  | @next session middle after expression expressions answer report hanswer hgoes hrest ih =>
      obtain ⟨fuel, hrun⟩ := hanswer
      obtain ⟨further, ih⟩ := ih
      refine ⟨max fuel further, fun more hle outcomes errors => ?_⟩
      have hanswer := eval_mono (Nat.le_trans (Nat.le_max_left _ _) hle) hrun
      have hconfig := Answers.config_eq ⟨more, hanswer⟩
      have ih := ih more (Nat.le_trans (Nat.le_max_right _ _) hle)
      rw [Session.evalAllFrom, hanswer]
      cases answer with
      | ok value =>
          simp only [ih]
          simp [Report.append, Report.single]
      | error error =>
          have hgoes : middle.config.continueOnError = true := by
            rw [hconfig]
            exact hgoes.resolve_right (by simp)
          simp only [hgoes, if_true, ih]
          simp [Report.append, Report.single, Nat.add_assoc]
  | @stop session after expression expressions error hanswer hstops =>
      obtain ⟨fuel, hrun⟩ := hanswer
      refine ⟨fuel, fun more hle outcomes errors => ?_⟩
      have hanswer := eval_mono hle hrun
      have hconfig := Answers.config_eq ⟨more, hanswer⟩
      rw [Session.evalAllFrom, hanswer]
      simp [hconfig, hstops, Report.append]

theorem reports_iff_batch :
    session.Reports expressions report after ↔ Batch session expressions report after := by
  constructor
  · rintro ⟨fuel, h⟩
    obtain ⟨rest, hrest, rfl⟩ := batch_of_evalAllFrom h
    simpa [Report.append] using hrest
  · intro h
    obtain ⟨fuel, h⟩ := h.evalAllFrom
    exact ⟨fuel, by simp [evalAll, h fuel (Nat.le_refl fuel), Report.append]⟩

theorem Batch.config_eq (h : Batch session expressions report after) :
    after.config = session.config := by
  induction h with
  | nil => rfl
  | next hanswer _ _ ih => exact ih.trans hanswer.config_eq
  | stop hanswer _ => exact hanswer.config_eq

theorem Batch.unique {other : Report} {later : Session}
    (h : Batch session expressions report after) (k : Batch session expressions other later) :
    report = other ∧ after = later := by
  induction h generalizing other with
  | nil =>
      cases k
      exact ⟨rfl, rfl⟩
  | next hanswer hgoes hrest ih =>
      cases k with
      | next kanswer _ krest =>
          obtain ⟨rfl, rfl⟩ := hanswer.unique kanswer
          obtain ⟨rfl, rfl⟩ := ih krest
          exact ⟨rfl, rfl⟩
      | stop kanswer kstops =>
          obtain ⟨rfl, -⟩ := hanswer.unique kanswer
          simp [kstops] at hgoes
  | stop hanswer hstops =>
      cases k with
      | next kanswer kgoes _ =>
          obtain ⟨rfl, -⟩ := hanswer.unique kanswer
          simp [hstops] at kgoes
      | stop kanswer _ =>
          obtain ⟨herror, rfl⟩ := hanswer.unique kanswer
          cases herror
          exact ⟨rfl, rfl⟩

/-! ## Two parts -/

/-- The second part is begun if the batch goes on behind failures, or if there was
none in the first. -/
theorem Batch.append (h : Batch session first report middle)
    (hgoes : session.config.continueOnError = true ∨ report.totalErrors = 0)
    (k : Batch middle second rest after) :
    Batch session (first ++ second) (report.append rest) after := by
  induction h with
  | nil => simpa [Report.append] using k
  | @next session middle _ expression expressions answer report hanswer hproceeds _ ih =>
      rw [Report.append_assoc]
      refine .next hanswer hproceeds (ih ?_ k)
      rw [hanswer.config_eq]
      refine hgoes.imp_right fun hnone => ?_
      simp only [Report.append] at hnone
      omega
  | stop _ hstops => simp [hstops] at hgoes

/-- A failure in the first part ends the batch, and the report on the batch says so
if there is anything behind the failure, in whichever part. -/
theorem Batch.append_of_stopped (h : Batch session first report after)
    (hstops : session.config.continueOnError = false) (herrors : report.totalErrors ≠ 0)
    (second : List Value) :
    Batch session (first ++ second)
      ⟨report.outcomes, report.totalErrors,
        decide (report.outcomes.length < first.length + second.length)⟩ after := by
  induction h with
  | nil => exact absurd rfl herrors
  | @next session middle _ expression expressions answer report hanswer hgoes _ ih =>
      -- The first expression has a value, so the failure is among the others.
      obtain ⟨value, rfl⟩ := hgoes.resolve_left (by simp [hstops])
      have hrest := ih (by rw [hanswer.config_eq, hstops])
        (by simpa [Report.append, Report.single] using herrors)
      have hshift : (report.outcomes.length < expressions.length + second.length) =
          (report.outcomes.length + 1 < expressions.length + 1 + second.length) := by
        simp only [eq_iff_iff]
        omega
      simp only [hshift] at hrest
      simpa [Report.append, Report.single] using
        Batch.next hanswer (.inr ⟨value, rfl⟩) hrest
  | @stop session after expression expressions error hanswer _ =>
      -- What is left behind the failure is the rest of the first part and the second part.
      have hbehind : (!(expressions ++ second).isEmpty) =
          decide (1 < expressions.length + 1 + second.length) := by
        cases expressions <;> cases second <;> simp
        omega
      have hwhole : Batch session (expression :: (expressions ++ second)) _ after :=
        .stop hanswer hstops
      simpa [hbehind] using hwhole

theorem Batch.stoppedEarly_of_continueOnError (h : Batch session expressions report after)
    (hgoes : session.config.continueOnError = true) : report.stoppedEarly = false := by
  induction h with
  | nil => rfl
  | next hanswer _ _ ih => exact ih (by rw [hanswer.config_eq, hgoes])
  | stop _ hstops => simp [hstops] at hgoes

theorem Batch.reports_iff (h : Batch session expressions report after) {whole : Report}
    {last : Session} :
    session.Reports expressions whole last ↔ whole = report ∧ last = after := by
  rw [reports_iff_batch]
  constructor
  · intro hwhole
    exact hwhole.unique h
  · rintro ⟨rfl, rfl⟩
    exact h

/-- A batch may be split. If it goes on behind failures, or if the first part has
none, then the whole reports what the first part reports and then what the second
part reports, and leaves the session that they leave. If it does not go on and the
first part has a failure, the whole reports what the first part reports, leaves the
same session, and has been stopped early if anything is left. -/
theorem reports_append (h : session.Reports first report middle) :
    (session.config.continueOnError = true → ∀ second rest after,
      middle.Reports second rest after → ∀ whole last,
        session.Reports (first ++ second) whole last ↔
          whole = ⟨report.outcomes ++ rest.outcomes, report.totalErrors + rest.totalErrors,
            false⟩ ∧ last = after) ∧
    (session.config.continueOnError = false → report.totalErrors = 0 → ∀ second rest after,
      middle.Reports second rest after → ∀ whole last,
        session.Reports (first ++ second) whole last ↔
          whole = ⟨report.outcomes ++ rest.outcomes, report.totalErrors + rest.totalErrors,
            rest.stoppedEarly⟩ ∧ last = after) ∧
    (session.config.continueOnError = false → report.totalErrors ≠ 0 → ∀ second whole last,
      session.Reports (first ++ second) whole last ↔
        whole = ⟨report.outcomes, report.totalErrors,
          decide (report.outcomes.length < first.length + second.length)⟩ ∧ last = middle) := by
  have hfirst := reports_iff_batch.1 h
  refine ⟨?_, ?_, ?_⟩
  · intro hgoes second rest after hsecond whole last
    have hrest := reports_iff_batch.1 hsecond
    have hearly := hrest.stoppedEarly_of_continueOnError (by rw [hfirst.config_eq, hgoes])
    rw [(hfirst.append (.inl hgoes) hrest).reports_iff, Report.append, hearly]
  · intro _ hnone second rest after hsecond whole last
    have hrest := reports_iff_batch.1 hsecond
    rw [(hfirst.append (.inr hnone) hrest).reports_iff, Report.append]
  · intro hstops herrors second whole last
    exact (hfirst.append_of_stopped hstops herrors second).reports_iff

/-- `y` is not bound. A batch that goes on prints `1`, fails at `y` and binds `x`. One
that does not go on binds `x` and fails at `y`: at the end of the second part, or at the
end of the first, and then the second is left. -/
theorem reports_append_unbound :
    (start ⟨true, true⟩).Reports
      [.list [.symbol "print", .int 1], .symbol "y", .list [.symbol "define", .symbol "x", .int 2]]
      ⟨[.value "()", .ofAnswer (.error (.unboundSymbol "y")), .value "()"], 1, false⟩
      ⟨⟨true, true⟩, ⟨NameMap.empty.insert "x" (.int 2)⟩, .captured ⟨"1\n".toUTF8, none⟩⟩ ∧
    (start ⟨true, false⟩).Reports
      [.list [.symbol "define", .symbol "x", .int 2], .symbol "y"]
      ⟨[.value "()", .ofAnswer (.error (.unboundSymbol "y"))], 1, false⟩
      ⟨⟨true, false⟩, ⟨NameMap.empty.insert "x" (.int 2)⟩, .captured .unbounded⟩ ∧
    (start ⟨true, false⟩).Reports
      [.list [.symbol "define", .symbol "x", .int 2], .symbol "y", .list [.symbol "print", .int 1]]
      ⟨[.value "()", .ofAnswer (.error (.unboundSymbol "y"))], 1, true⟩
      ⟨⟨true, false⟩, ⟨NameMap.empty.insert "x" (.int 2)⟩, .captured .unbounded⟩ := by
  refine ⟨?_, ?_, ?_⟩
  · have hfirst : (start ⟨true, true⟩).Reports [.list [.symbol "print", .int 1], .symbol "y"]
        ⟨[.value "()", .ofAnswer (.error (.unboundSymbol "y"))], 1, false⟩
        ⟨⟨true, true⟩, .empty, .captured ⟨"1\n".toUTF8, none⟩⟩ := ⟨3, rfl⟩
    exact ((reports_append hfirst).1 rfl [.list [.symbol "define", .symbol "x", .int 2]]
      ⟨[.value "()"], 0, false⟩ _ ⟨3, rfl⟩ _ _).2 ⟨rfl, rfl⟩
  · have hfirst : (start ⟨true, false⟩).Reports [.list [.symbol "define", .symbol "x", .int 2]]
        ⟨[.value "()"], 0, false⟩
        ⟨⟨true, false⟩, ⟨NameMap.empty.insert "x" (.int 2)⟩, .captured .unbounded⟩ := ⟨3, rfl⟩
    exact ((reports_append hfirst).2.1 rfl rfl [.symbol "y"]
      ⟨[.ofAnswer (.error (.unboundSymbol "y"))], 1, false⟩ _ ⟨3, rfl⟩ _ _).2 ⟨rfl, rfl⟩
  · have hfirst : (start ⟨true, false⟩).Reports
        [.list [.symbol "define", .symbol "x", .int 2], .symbol "y"]
        ⟨[.value "()", .ofAnswer (.error (.unboundSymbol "y"))], 1, false⟩
        ⟨⟨true, false⟩, ⟨NameMap.empty.insert "x" (.int 2)⟩, .captured .unbounded⟩ := ⟨3, rfl⟩
    exact ((reports_append hfirst).2.2 rfl (by decide) [.list [.symbol "print", .int 1]] _ _).2
      ⟨rfl, rfl⟩

end Session

end Sexpr
