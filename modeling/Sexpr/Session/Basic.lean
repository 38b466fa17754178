import Sexpr.Eval.Basic
import Sexpr.Session.Config
import Sexpr.Session.Report
import Sexpr.Text.Utf8

/-!
# Sessions

A session evaluates expressions one after the other in one environment. A
failure leaves it usable: whatever was bound and printed before remains. What
is printed is either kept until it is asked for, or waits to be passed on to
standard output; where it goes is settled when the session begins, and makes no
difference to any answer.
-/

namespace Sexpr

/-- Where printed lines are. -/
inductive Channel where
  /-- They are kept in the session. -/
  | captured (sink : ByteSink)
  /-- They wait to be passed on. -/
  | outgoing (sink : ByteSink)

namespace Channel

/-- The channel of a session that has printed nothing. -/
def start (capture : Bool) : Channel :=
  if capture then captured .unbounded else outgoing .unbounded

/-- The sink that evaluation writes into. -/
def sink : Channel → ByteSink
  | captured sink | outgoing sink => sink

/-- The same channel with another sink. -/
def withSink : Channel → ByteSink → Channel
  | captured _, sink => captured sink
  | outgoing _, sink => outgoing sink

@[simp] theorem sink_withSink (channel : Channel) (sink : ByteSink) :
    (channel.withSink sink).sink = sink := by
  cases channel <;> rfl

@[simp] theorem withSink_withSink (channel : Channel) (first second : ByteSink) :
    (channel.withSink first).withSink second = channel.withSink second := by
  cases channel <;> rfl

end Channel

/-- An environment and a channel, under a configuration. -/
structure Session where
  config : Config
  environment : Environment
  channel : Channel

namespace Session

/-- A session in which nothing has been evaluated. -/
def start (config : Config) : Session :=
  ⟨config, .empty, .start config.captureOutput⟩

instance : Inhabited Session := ⟨start .standard⟩

def eval (fuel : Nat) (session : Session) (expression : Value) :
    Run Session (Except Error Value) :=
  match Sexpr.eval fuel expression ⟨session.environment, session.channel.sink⟩ with
  | .done answer after =>
      .done answer
        { session with
          environment := after.environment
          channel := session.channel.withSink after.sink }
  | .stuck => .stuck
  | .outOfFuel => .outOfFuel

/-- Evaluates the expressions of a batch in order and goes on behind a failure
if the configuration says so. Behind the outcomes so far, the last one first,
stand the outcomes of the rest. -/
def evalAllFrom (fuel : Nat) (outcomes : List Outcome) (errors : Nat) (session : Session) :
    List Value → Run Session Report
  | [] => .done ⟨outcomes.reverse, errors, false⟩ session
  | expression :: rest =>
      match session.eval fuel expression with
      | .done answer after =>
          let outcomes := Outcome.ofAnswer answer :: outcomes
          match answer with
          | .ok _ => evalAllFrom fuel outcomes errors after rest
          | .error _ =>
              if after.config.continueOnError then
                evalAllFrom fuel outcomes (errors + 1) after rest
              else .done ⟨outcomes.reverse, errors + 1, !rest.isEmpty⟩ after
      | .stuck => .stuck
      | .outOfFuel => .outOfFuel

/-- Evaluates a batch and reports on it. -/
def evalAll (fuel : Nat) (session : Session) (expressions : List Value) :
    Run Session Report :=
  evalAllFrom fuel [] 0 session expressions

def lookup (session : Session) (name : String) : Except Error Value :=
  session.environment.lookup name

/-- The text that has been kept. There is none where it is passed on. -/
def output (session : Session) : String :=
  match session.channel with
  | .captured sink => Text.decode sink.bytes
  | .outgoing _ => ""

/-- Takes the text that has been kept out of the session. -/
def takeOutput (session : Session) : String × Session :=
  match session.channel with
  | .captured sink =>
      let (bytes, sink) := sink.drain
      (Text.decode bytes, { session with channel := .captured sink })
  | .outgoing _ => ("", session)

/-- Takes out the bytes that wait to be passed on. -/
def passOn (session : Session) : ByteArray × Session :=
  match session.channel with
  | .captured _ => (.empty, session)
  | .outgoing sink =>
      let (bytes, sink) := sink.drain
      (bytes, { session with channel := .outgoing sink })

end Session

end Sexpr
