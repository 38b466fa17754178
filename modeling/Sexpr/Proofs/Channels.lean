import Sexpr.Proofs.CapturedOutput

/-!
# Where printed lines go

It is settled when a session begins whether the lines it prints are captured or passed
on, and no evaluation can tell. Two sessions that begin with different channels but
treat failures alike give the same responses, come to the same bindings, and print the
same text: the one has it to hand out, and the other passes it on.

A session is no more than a place where evaluations are made in turn. Expressions
evaluated one after the other in one environment, without any session, have the answers
that they have in a session which has just begun, leave the same bindings and print the
same text.
-/

namespace Sexpr

namespace Session

variable {session after : Session} {environment left : Environment} {lines : List String}
  {exchanges : List (Request × Response)} {evaluated : List (Value × Except Error Value)}

/-! ## What has been printed -/

/-- The bytes that have been printed in a session: those of the text it has captured, or
those that it is to pass on. -/
def printed (session : Session) : ByteArray :=
  match session.channel with
  | .captured _ => session.output.toUTF8
  | .outgoing _ => session.passOn.1

theorem output_advance_start (proceed : Bool) :
    ((start ⟨true, proceed⟩).advance environment lines).output = linesText lines := by
  have hkeeps := (keeps_start proceed).advance environment lines
  rw [String.empty_append] at hkeeps
  exact hkeeps.output_eq

theorem passOn_advance_start (proceed : Bool) :
    ((start ⟨false, proceed⟩).advance environment lines).passOn.1 = (linesText lines).toUTF8 :=
  ByteArray.empty_append

theorem printed_advance_start (config : Config) :
    ((start config).advance environment lines).printed = (linesText lines).toUTF8 := by
  obtain ⟨capture, proceed⟩ := config
  cases capture with
  | true => exact congrArg String.toUTF8 (output_advance_start proceed)
  | false => exact passOn_advance_start proceed

theorem room_start (config : Config) : (start config).channel.sink.room = none := by
  obtain ⟨capture, proceed⟩ := config
  cases capture <;> rfl

/-! ## Two channels -/

/-- What can be asked of a session that begins with one channel can be asked of one that
begins with another, with the same responses. -/
theorem Dialogue.of_start {config : Config} (h : Dialogue (start config) exchanges after)
    (hreads : ∀ exchange ∈ exchanges, exchange.1.reads = false) :
    ∃ lines left, after = (start config).advance left lines ∧
      ∀ other : Config, config.continueOnError = other.continueOnError →
        Dialogue (start other) exchanges ((start other).advance left lines) := by
  obtain ⟨-, lines, left, -, -, hafter, hdialogue⟩ := h.advances (room_start config) hreads
  refine ⟨lines, left, hafter, ?_⟩
  intro other hproceed
  exact hdialogue _ ⟨hproceed, rfl, room_start config, room_start other⟩

/-! ## No session at all -/

/-- Expressions that are put to a session one at a time, and its answers. -/
def asked (evaluated : List (Value × Except Error Value)) : List (Request × Response) :=
  evaluated.map fun exchange => (.eval exchange.1, .answer exchange.2)

theorem dialogue_of_evaluatesInTurn (h : EvaluatesInTurn environment evaluated lines left)
    (hsession : session.environment = environment) (hroom : session.channel.sink.room = none) :
    Dialogue session (asked evaluated) (session.advance left lines) := by
  induction h generalizing session with
  | nil =>
      rw [← hsession, advance_nil hroom]
      exact .nil
  | cons hevaluates _ ih =>
      rw [← hsession] at hevaluates
      have hanswer := (answers_iff_evaluates hroom).2 ⟨_, _, hevaluates, rfl⟩
      rw [← advance_advance]
      exact .cons (.eval hanswer) (ih rfl (by simp))

theorem Dialogue.evaluatesInTurn (h : Dialogue session (asked evaluated) after)
    (hroom : session.channel.sink.room = none) :
    ∃ lines, EvaluatesInTurn session.environment evaluated lines after.environment ∧
      after = session.advance after.environment lines := by
  induction evaluated generalizing session with
  | nil =>
      cases h
      exact ⟨[], .nil, (advance_nil hroom).symm⟩
  | cons exchange evaluated ih =>
      cases h with
      | cons hexchange hrest =>
          cases hexchange with
          | eval hanswer =>
              obtain ⟨lines, left, hevaluates, rfl⟩ := (answers_iff_evaluates hroom).1 hanswer
              obtain ⟨more, hturn, hafter⟩ := ih hrest (by simp)
              rw [advance_advance] at hafter
              exact ⟨lines ++ more, .cons hevaluates hturn, hafter⟩

/-- A dialogue without readings takes place on both channels or on neither, with the same
responses and the same bindings in the end, and the text that is captured on the one is
what is passed on by the other. Expressions that are evaluated in turn in an empty
environment have the same answers in any session that has just begun, and leave the same
bindings and print the same text. -/
theorem dialogue_channels :
    (∀ (proceed : Bool) (exchanges : List (Request × Response)) (environment : Environment)
      (text : String), (∀ exchange ∈ exchanges, exchange.1.reads = false) →
      ((∃ after, Dialogue (start ⟨true, proceed⟩) exchanges after ∧
          after.environment = environment ∧ after.output = text) ↔
        ∃ after, Dialogue (start ⟨false, proceed⟩) exchanges after ∧
          after.environment = environment ∧ after.passOn.1 = text.toUTF8)) ∧
    ∀ (config : Config) (evaluated : List (Value × Except Error Value))
      (environment : Environment) (text : String),
      (∃ lines, EvaluatesInTurn .empty evaluated lines environment ∧ linesText lines = text) ↔
        ∃ after, Dialogue (start config) (asked evaluated) after ∧
          after.environment = environment ∧ after.printed = text.toUTF8 := by
  constructor
  · intro proceed exchanges environment text hreads
    constructor
    · rintro ⟨after, h, rfl, rfl⟩
      obtain ⟨lines, left, rfl, hother⟩ := h.of_start hreads
      refine ⟨_, hother ⟨false, proceed⟩ rfl, rfl, ?_⟩
      rw [passOn_advance_start, output_advance_start]
    · rintro ⟨after, h, rfl, htext⟩
      obtain ⟨lines, left, rfl, hother⟩ := h.of_start hreads
      rw [passOn_advance_start] at htext
      refine ⟨_, hother ⟨true, proceed⟩ rfl, rfl, ?_⟩
      rw [output_advance_start, String.toByteArray_inj.1 htext]
  · intro config evaluated environment text
    constructor
    · rintro ⟨lines, hturn, rfl⟩
      exact ⟨_, dialogue_of_evaluatesInTurn hturn rfl (room_start config), rfl,
        printed_advance_start config⟩
    · rintro ⟨after, h, rfl, htext⟩
      obtain ⟨lines, hturn, hafter⟩ := h.evaluatesInTurn (room_start config)
      rw [hafter, printed_advance_start] at htext
      exact ⟨lines, hturn, String.toByteArray_inj.1 htext⟩

/-- `x` is bound and looked up, and then a batch prints it and stops at `y`, which is not
bound. What was captured on the one channel is passed on by the other. -/
theorem dialogue_channels_stopped :
    ∃ after, Dialogue (start ⟨false, false⟩)
      [(.eval (.list [.symbol "define", .symbol "x", .int 1]), .answer (.ok .empty)),
        (.lookup "x", .answer (.ok (.int 1))),
        (.evalAll [.list [.symbol "print", .symbol "x"], .symbol "y", .int 2],
          .report ⟨[.value "()", .ofAnswer (.error (.unboundSymbol "y"))], 1, true⟩)] after ∧
      after.environment = ⟨NameMap.empty.insert "x" (.int 1)⟩ ∧
      after.passOn.1 = "1\n".toUTF8 := by
  have hbound : Exchange (start ⟨true, false⟩)
      (.eval (.list [.symbol "define", .symbol "x", .int 1])) (.answer (.ok .empty))
      ⟨⟨true, false⟩, ⟨NameMap.empty.insert "x" (.int 1)⟩, .captured .unbounded⟩ :=
    .eval ⟨2, rfl⟩
  have hstopped : Exchange
      ⟨⟨true, false⟩, ⟨NameMap.empty.insert "x" (.int 1)⟩, .captured .unbounded⟩
      (.evalAll [.list [.symbol "print", .symbol "x"], .symbol "y", .int 2])
      (.report ⟨[.value "()", .ofAnswer (.error (.unboundSymbol "y"))], 1, true⟩)
      ⟨⟨true, false⟩, ⟨NameMap.empty.insert "x" (.int 1)⟩,
        .captured ⟨"1\n".toUTF8, none⟩⟩ :=
    .evalAll ⟨2, rfl⟩
  exact (dialogue_channels.1 false _ _ "1\n" (by decide)).1
    ⟨_, .cons hbound (.cons .lookup (.cons hstopped .nil)), rfl, Text.decode_toUTF8 "1\n"⟩

end Session

end Sexpr
