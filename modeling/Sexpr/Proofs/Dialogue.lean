import Sexpr.Proofs.Batch
import Sexpr.Proofs.Printing

/-!
# Dialogues with a session

Whoever holds a session can have expressions evaluated in it, one at a time or as a
batch, look a name up, and read the captured output, with or without taking it out. A
dialogue is a sequence of such requests, each with its response.

Reading aside, a request does one thing to a session: it evaluates some expressions in
turn. So the session gets other bindings and more printed lines, and nothing else about
it changes (`Dialogue.advances`). Which bindings and lines these are, and what the
responses are, depends on the bindings the session has and on whether a batch goes on
behind failures. It does not depend on what has been printed before, nor on where the
printed lines are kept; two sessions that agree on the rest are `Alike`, and the same
dialogue advances both of them alike.
-/

namespace Sexpr

/-- What a session may be asked. -/
inductive Request where
  | eval (expression : Value)
  | evalAll (expressions : List Value)
  | lookup (name : String)
  | output
  | takeOutput

/-- Whether a request reads the captured output. -/
def Request.reads : Request → Bool
  | output | takeOutput => true
  | _ => false

inductive Response where
  | answer (answer : Except Error Value)
  | report (report : Report)
  | text (text : String)

namespace Session

/-- A session responds to a request, and goes on as another. -/
inductive Exchange (before : Session) : Request → Response → Session → Prop where
  | eval {expression : Value} {answer : Except Error Value} {after : Session}
      (h : before.Answers expression answer after) :
      Exchange before (.eval expression) (.answer answer) after
  | evalAll {expressions : List Value} {report : Report} {after : Session}
      (h : before.Reports expressions report after) :
      Exchange before (.evalAll expressions) (.report report) after
  | lookup {name : String} : Exchange before (.lookup name) (.answer (before.lookup name)) before
  | output : Exchange before .output (.text before.output) before
  | takeOutput : Exchange before .takeOutput (.text before.takeOutput.1) before.takeOutput.2

/-- Requests with their responses, one after the other. -/
inductive Dialogue : Session → List (Request × Response) → Session → Prop where
  | nil {session : Session} : Dialogue session [] session
  | cons {session middle after : Session} {request : Request} {response : Response}
      {rest : List (Request × Response)} (h : session.Exchange request response middle)
      (hrest : Dialogue middle rest after) :
      Dialogue session ((request, response) :: rest) after

theorem Exchange.unique {session middle other : Session} {request : Request}
    {response reply : Response} (h : session.Exchange request response middle)
    (k : session.Exchange request reply other) : response = reply ∧ middle = other := by
  cases h with
  | eval hanswer =>
      cases k with
      | eval kanswer =>
          obtain ⟨rfl, rfl⟩ := hanswer.unique kanswer
          exact ⟨rfl, rfl⟩
  | evalAll hreports =>
      cases k with
      | evalAll kreports =>
          obtain ⟨rfl, rfl⟩ := (reports_iff_batch.1 hreports).unique (reports_iff_batch.1 kreports)
          exact ⟨rfl, rfl⟩
  | lookup | output | takeOutput =>
      cases k
      exact ⟨rfl, rfl⟩

/-- A session leaves no choice: the requests of a dialogue determine the rest of it. -/
theorem Dialogue.unique {session after last : Session}
    {exchanges others : List (Request × Response)}
    (h : Dialogue session exchanges after) (k : Dialogue session others last)
    (hrequests : others.map Prod.fst = exchanges.map Prod.fst) :
    others = exchanges ∧ last = after := by
  induction h generalizing others with
  | nil =>
      obtain rfl : others = [] := List.map_eq_nil_iff.1 hrequests
      cases k
      exact ⟨rfl, rfl⟩
  | cons hexchange _ ih =>
      cases k with
      | nil => cases hrequests
      | cons kexchange krest =>
          obtain ⟨rfl, htail⟩ := List.cons.inj hrequests
          obtain ⟨rfl, rfl⟩ := hexchange.unique kexchange
          obtain ⟨rfl, rfl⟩ := ih krest htail
          exact ⟨rfl, rfl⟩

/-- The expressions that have been evaluated in an exchange. Of a batch these are as
many as there are outcomes. -/
def evaluatedIn : Request × Response → List Value
  | (.eval expression, _) => [expression]
  | (.evalAll expressions, .report report) => expressions.take report.outcomes.length
  | _ => []

/-! ## Other bindings and more lines -/

/-- The same session with other bindings, and with more lines printed. -/
def advance (session : Session) (environment : Environment) (lines : List String) : Session :=
  session.moved ⟨environment, ⟨session.channel.sink.bytes ++ (linesText lines).toUTF8, none⟩⟩

variable {session middle after other : Session} {environment left : Environment}
  {lines more : List String}

@[simp] theorem advance_channel :
    (session.advance environment lines).channel =
      session.channel.withSink
        ⟨session.channel.sink.bytes ++ (linesText lines).toUTF8, none⟩ := rfl

theorem advance_advance :
    (session.advance environment lines).advance left more =
      session.advance left (lines ++ more) := by
  have htext : (linesText (lines ++ more)).toUTF8 =
      (linesText lines).toUTF8 ++ (linesText more).toUTF8 := by
    rw [linesText_append]
    exact String.toByteArray_append
  simp only [advance, moved, Channel.sink_withSink, Channel.withSink_withSink, htext,
    ByteArray.append_assoc]

theorem advance_nil (hroom : session.channel.sink.room = none) :
    session.advance session.environment [] = session := by
  obtain ⟨config, environment, channel⟩ := session
  rw [advance, moved]
  rcases channel with ⟨bytes, room⟩ | ⟨bytes, room⟩ <;>
    obtain rfl : room = none := hroom <;>
    exact congrArg (fun bytes => Session.mk config environment (Channel.withSink _ ⟨bytes, none⟩))
      ByteArray.append_empty

/-! ## Sessions alike -/

/-- Two sessions have the same bindings and treat failures alike, and both of them take
in whatever is printed. -/
structure Alike (first second : Session) : Prop where
  continueOnError : first.config.continueOnError = second.config.continueOnError
  environment : first.environment = second.environment
  left : first.channel.sink.room = none
  right : second.channel.sink.room = none

theorem Alike.refl (hroom : session.channel.sink.room = none) : session.Alike session :=
  ⟨rfl, rfl, hroom, hroom⟩

theorem Alike.symm (h : session.Alike other) : other.Alike session :=
  ⟨h.continueOnError.symm, h.environment.symm, h.right, h.left⟩

theorem Alike.advance (h : session.Alike other) (environment : Environment)
    (lines : List String) :
    (session.advance environment lines).Alike (other.advance environment lines) :=
  ⟨h.continueOnError, rfl, by simp, by simp⟩

/-! ## Advancing

Batches, exchanges and dialogues all lead from one session to another. To say that one
of them advances a session is to say that this comes from evaluating some expressions in
turn, and that any session alike is led on in the same way. -/

def Advances (session : Session) (expressions : List Value) (Leads : Session → Session → Prop)
    (after : Session) : Prop :=
  ∃ evaluated lines left, EvaluatesInTurn session.environment evaluated lines left ∧
    evaluated.map Prod.fst = expressions ∧ after = session.advance left lines ∧
    ∀ other, session.Alike other → Leads other (other.advance left lines)

namespace Advances

variable {Leads First Second : Session → Session → Prop} {expressions first second : List Value}

theorem refl (hroom : session.channel.sink.room = none)
    (hleads : ∀ other, session.Alike other → Leads other other) :
    session.Advances [] Leads session := by
  refine ⟨[], [], session.environment, .nil, rfl, (advance_nil hroom).symm, ?_⟩
  intro other halike
  rw [halike.environment, advance_nil halike.right]
  exact hleads other halike

theorem trans (h : session.Advances first First middle) (k : middle.Advances second Second after)
    (hleads : ∀ other next last, session.Alike other → First other next → Second next last →
      Leads other last) :
    session.Advances (first ++ second) Leads after := by
  obtain ⟨evaluated, lines, left, hturn, rfl, rfl, hfirst⟩ := h
  obtain ⟨rest, more, last, hrest, rfl, rfl, hsecond⟩ := k
  refine ⟨evaluated ++ rest, lines ++ more, last, hturn.append hrest, List.map_append,
    advance_advance, ?_⟩
  intro other halike
  have hnext := hsecond _ (halike.advance left lines)
  rw [advance_advance] at hnext
  exact hleads _ _ _ halike (hfirst other halike) hnext

theorem mono (h : session.Advances expressions First after)
    (hleads : ∀ other last, session.Alike other → First other last → Second other last) :
    session.Advances expressions Second after := by
  obtain ⟨evaluated, lines, left, hturn, hexpressions, hafter, hfirst⟩ := h
  exact ⟨evaluated, lines, left, hturn, hexpressions, hafter,
    fun other halike => hleads other _ halike (hfirst other halike)⟩

/-- A session that has been advanced still takes in whatever is printed. -/
theorem room (h : session.Advances expressions Leads after) : after.channel.sink.room = none := by
  obtain ⟨evaluated, lines, left, -, -, rfl, -⟩ := h
  simp

end Advances

theorem answers_iff_evaluates {expression : Value} {answer : Except Error Value}
    (hroom : session.channel.sink.room = none) :
    session.Answers expression answer after ↔
      ∃ lines left, Evaluates session.environment expression answer lines left ∧
        after = session.advance left lines := by
  have hsink : session.channel.sink = ⟨session.channel.sink.bytes, none⟩ := by rw [← hroom]
  rw [answers_iff, hsink]
  constructor
  · rintro ⟨machine, hreturns, rfl⟩
    obtain ⟨lines, left, hevaluates, rfl⟩ := returns_iff_evaluates.1 hreturns
    exact ⟨lines, left, hevaluates, rfl⟩
  · rintro ⟨lines, left, hevaluates, rfl⟩
    exact ⟨_, returns_iff_evaluates.2 ⟨lines, left, hevaluates, rfl⟩, rfl⟩

theorem Answers.advances {expression : Value} {answer : Except Error Value}
    (h : session.Answers expression answer after) (hroom : session.channel.sink.room = none) :
    session.Advances [expression] (fun other last => other.Answers expression answer last)
      after := by
  obtain ⟨lines, left, hevaluates, rfl⟩ := (answers_iff_evaluates hroom).1 h
  refine ⟨[(expression, answer)], lines, left, .single hevaluates, rfl, rfl, ?_⟩
  intro other halike
  rw [halike.environment] at hevaluates
  exact (answers_iff_evaluates halike.right).2 ⟨lines, left, hevaluates, rfl⟩

/-- A batch evaluates as many of its expressions in turn as it has outcomes for. -/
theorem Batch.advances {expressions : List Value} {report : Report}
    (h : Batch session expressions report after) (hroom : session.channel.sink.room = none) :
    session.Advances (expressions.take report.outcomes.length)
      (fun other last => Batch other expressions report last) after := by
  induction h with
  | nil => exact .refl hroom fun _ _ => .nil
  | next hanswer hgoes _ ih =>
      have hfirst := hanswer.advances hroom
      rw [Report.outcomes_single_append, List.length_cons, List.take_succ_cons]
      refine hfirst.trans (ih hfirst.room) ?_
      intro other next last halike hnext hrest
      rw [halike.continueOnError] at hgoes
      exact .next hnext hgoes hrest
  | stop hanswer hstops =>
      refine (hanswer.advances hroom).mono ?_
      intro other last halike hlast
      rw [halike.continueOnError] at hstops
      exact .stop hlast hstops

theorem Exchange.advances {request : Request} {response : Response}
    (h : session.Exchange request response after) (hroom : session.channel.sink.room = none)
    (hreads : request.reads = false) :
    session.Advances (evaluatedIn (request, response))
      (fun other last => other.Exchange request response last) after := by
  cases h with
  | eval hanswer => exact (hanswer.advances hroom).mono fun _ _ _ => .eval
  | evalAll hreports =>
      refine ((reports_iff_batch.1 hreports).advances hroom).mono ?_
      intro other last _ hbatch
      exact .evalAll (reports_iff_batch.2 hbatch)
  | lookup =>
      refine .refl hroom ?_
      intro other halike
      rw [Session.lookup, halike.environment]
      exact .lookup
  | output | takeOutput => cases hreads

/-- Nothing but the bindings and the printed lines of a session changes in a dialogue
without reading, and no other session alike would have answered differently. -/
theorem Dialogue.advances {exchanges : List (Request × Response)}
    (h : Dialogue session exchanges after) (hroom : session.channel.sink.room = none)
    (hreads : ∀ exchange ∈ exchanges, exchange.1.reads = false) :
    session.Advances (exchanges.flatMap evaluatedIn)
      (fun other last => Dialogue other exchanges last) after := by
  induction h with
  | nil => exact .refl hroom fun _ _ => .nil
  | cons hexchange _ ih =>
      rw [List.forall_mem_cons] at hreads
      have hfirst := hexchange.advances hroom hreads.1
      rw [List.flatMap_cons]
      exact hfirst.trans (ih hfirst.room hreads.2) fun _ _ _ _ => .cons

end Session

end Sexpr
