import Sexpr.Proofs.Dialogue

/-!
# Captured output

A session that captures its output keeps bytes and hands out text. The bytes it keeps
are whole lines in UTF-8 and nothing else: evaluation adds whole lines, and taking the
output out leaves none. So reading them back as text replaces nothing, and what has been
taken out, followed by what is still kept, is the text of all lines printed since the
session began, each of them once and in order (`Dialogue.keeps`).

Reading is invisible besides. It changes what is kept, if anything, and no evaluation
looks at that. If readings are left out of a dialogue or put into it, everything else
stays as it was (`Dialogue.leave_out`, `Dialogue.put_in`).
-/

namespace Sexpr

namespace Session

variable {session middle after other last : Session} {request : Request} {response : Response}
  {exchanges : List (Request × Response)} {text : String}

/-! ## What is kept -/

/-- A session captures its output, and what it keeps at present is this text. -/
def Keeps (session : Session) (text : String) : Prop :=
  session.channel = .captured ⟨text.toUTF8, none⟩

theorem keeps_start (proceed : Bool) : (start ⟨true, proceed⟩).Keeps "" := rfl

namespace Keeps

theorem room (h : session.Keeps text) : session.channel.sink.room = none := by
  rw [h]
  rfl

theorem output_eq (h : session.Keeps text) : session.output = text := by
  rw [output, h]
  exact Text.decode_toUTF8 text

theorem takeOutput_eq (h : session.Keeps text) :
    session.takeOutput = (text, { session with channel := .captured .unbounded }) := by
  rw [takeOutput, h]
  simp only [ByteSink.drain, Text.decode_toUTF8]
  rfl

theorem advance (h : session.Keeps text) (environment : Environment) (lines : List String) :
    (session.advance environment lines).Keeps (text ++ linesText lines) := by
  have hbytes : (text ++ linesText lines).toUTF8 = text.toUTF8 ++ (linesText lines).toUTF8 :=
    String.toByteArray_append
  rw [Keeps, advance_channel, h, hbytes]
  rfl

end Keeps

/-- The text that an exchange has taken out of a session. -/
def takenIn : Request × Response → String
  | (.takeOutput, .text text) => text
  | _ => ""

theorem takenIn_of_not_reads (h : request.reads = false) : takenIn (request, response) = "" := by
  cases request with
  | eval | evalAll | lookup | output => rfl
  | takeOutput => cases h

/-- A reading takes text out from the front, if any, and keeps the rest. -/
theorem Exchange.keeps_of_reads (h : session.Exchange request response middle)
    (hreads : request.reads = true) (hkeeps : session.Keeps text) :
    middle.environment = session.environment ∧ evaluatedIn (request, response) = [] ∧
      ∃ kept, middle.Keeps kept ∧ takenIn (request, response) ++ kept = text := by
  cases h with
  | eval | evalAll | lookup => cases hreads
  | output => exact ⟨rfl, rfl, text, hkeeps, String.empty_append⟩
  | takeOutput =>
      rw [hkeeps.takeOutput_eq]
      exact ⟨rfl, rfl, "", rfl, String.append_empty⟩

/-- What is taken out and what is kept in the end is what was kept in the beginning and
the lines that are printed in between. -/
theorem Dialogue.keeps (h : Dialogue session exchanges after) (hkeeps : session.Keeps text) :
    ∃ evaluated lines kept,
      EvaluatesInTurn session.environment evaluated lines after.environment ∧
      evaluated.map Prod.fst = exchanges.flatMap evaluatedIn ∧ after.Keeps kept ∧
      String.join (exchanges.map takenIn) ++ kept = text ++ linesText lines := by
  induction h generalizing text with
  | nil => exact ⟨[], [], text, .nil, rfl, hkeeps, by simp [linesText]⟩
  | @cons session middle after request response rest hexchange _ ih =>
      rw [List.map_cons, String.join_cons, List.flatMap_cons]
      cases hreads : request.reads with
      | true =>
          obtain ⟨henvironment, hnone, held, hheld, htaken⟩ :=
            hexchange.keeps_of_reads hreads hkeeps
          obtain ⟨evaluated, lines, kept, hturn, hexpressions, hkept, htext⟩ := ih hheld
          rw [henvironment] at hturn
          refine ⟨evaluated, lines, kept, hturn, ?_, hkept, ?_⟩
          · rw [hnone, hexpressions, List.nil_append]
          · rw [String.append_assoc, htext, ← String.append_assoc, htaken]
      | false =>
          obtain ⟨first, lines, left, hfirst, hfirstIn, rfl, -⟩ :=
            hexchange.advances hkeeps.room hreads
          obtain ⟨evaluated, more, kept, hturn, hexpressions, hkept, htext⟩ :=
            ih (hkeeps.advance left lines)
          refine ⟨first ++ evaluated, lines ++ more, kept, hfirst.append hturn, ?_, hkept, ?_⟩
          · rw [List.map_append, hfirstIn, hexpressions]
          · rw [takenIn_of_not_reads hreads, String.empty_append, htext, linesText_append,
              String.append_assoc]

/-! ## Reading is invisible -/

theorem Exchange.alike_of_reads (h : session.Exchange request response middle)
    (hreads : request.reads = true) (halike : session.Alike other) : middle.Alike other := by
  cases h with
  | eval | evalAll | lookup => cases hreads
  | output => exact halike
  | takeOutput =>
      obtain ⟨config, environment, channel⟩ := session
      cases channel with
      | captured sink =>
          exact ⟨halike.continueOnError, halike.environment, halike.left, halike.right⟩
      | outgoing sink => exact halike

theorem exists_exchange_of_reads (hreads : request.reads = true) (session : Session) :
    ∃ response middle, session.Exchange request response middle := by
  cases request with
  | eval | evalAll | lookup => cases hreads
  | output => exact ⟨_, _, .output⟩
  | takeOutput => exact ⟨_, _, .takeOutput⟩

theorem Dialogue.leave_out (h : Dialogue session exchanges after) (halike : session.Alike other) :
    ∃ last, Dialogue other (exchanges.filter fun exchange => !exchange.1.reads) last ∧
      after.Alike last := by
  induction h generalizing other with
  | nil => exact ⟨other, .nil, halike⟩
  | @cons session middle after request response rest hexchange _ ih =>
      cases hreads : request.reads with
      | true =>
          rw [List.filter_cons_of_neg (by simp [hreads])]
          exact ih (hexchange.alike_of_reads hreads halike)
      | false =>
          obtain ⟨-, lines, left, -, -, rfl, hother⟩ := hexchange.advances halike.left hreads
          obtain ⟨last, hrest, hlast⟩ := ih (halike.advance left lines)
          rw [List.filter_cons_of_pos (by simp [hreads])]
          exact ⟨last, .cons (hother other halike) hrest, hlast⟩

theorem Dialogue.put_in {requests : List Request} (h : Dialogue session exchanges after)
    (hrequests : requests.filter (fun request => !request.reads) = exchanges.map Prod.fst)
    (halike : session.Alike other) :
    ∃ others last, Dialogue other others last ∧ others.map Prod.fst = requests ∧
      others.filter (fun exchange => !exchange.1.reads) = exchanges ∧ after.Alike last := by
  induction requests generalizing session other exchanges with
  | nil =>
      obtain rfl : exchanges = [] := List.map_eq_nil_iff.1 hrequests.symm
      cases h
      exact ⟨[], other, .nil, rfl, rfl, halike⟩
  | cons request requests ih =>
      cases hreads : request.reads with
      | true =>
          rw [List.filter_cons_of_neg (by simp [hreads])] at hrequests
          obtain ⟨response, next, hexchange⟩ := exists_exchange_of_reads hreads other
          have hnext := (hexchange.alike_of_reads hreads halike.symm).symm
          obtain ⟨others, last, hothers, hmap, hfilter, hlast⟩ := ih h hrequests hnext
          refine ⟨(request, response) :: others, last, .cons hexchange hothers, ?_, ?_, hlast⟩
          · rw [List.map_cons, hmap]
          · rw [List.filter_cons_of_neg (by simp [hreads]), hfilter]
      | false =>
          rw [List.filter_cons_of_pos (by simp [hreads])] at hrequests
          cases h with
          | nil => cases hrequests
          | @cons _ middle _ asked response rest hexchange hrest =>
              obtain ⟨rfl, htail⟩ := List.cons.inj hrequests
              obtain ⟨-, lines, left, -, -, rfl, hother⟩ := hexchange.advances halike.left hreads
              obtain ⟨others, last, hothers, hmap, hfilter, hlast⟩ :=
                ih hrest htail (halike.advance left lines)
              refine ⟨(request, response) :: others, last, .cons (hother other halike) hothers,
                ?_, ?_, hlast⟩
              · rw [List.map_cons, hmap]
              · rw [List.filter_cons_of_pos (by simp [hreads]), hfilter]

/-- Whatever a session that captures its output is asked, what has been taken out of it
and what it keeps are the lines that have been printed by the expressions evaluated in
it. What it keeps are the bytes of the text that it hands out. And if readings are left
out of the dialogue, or put into it, it still takes place, with the same responses to
everything else, and leaves the same bindings. -/
theorem dialogue_captured {proceed : Bool}
    (h : Dialogue (start ⟨true, proceed⟩) exchanges after) :
    (∃ evaluated lines, EvaluatesInTurn .empty evaluated lines after.environment ∧
      evaluated.map Prod.fst = exchanges.flatMap evaluatedIn ∧
      String.join (exchanges.map takenIn) ++ after.output = linesText lines) ∧
    after.channel = .captured ⟨after.output.toUTF8, none⟩ ∧
    ∀ requests : List Request, requests.filter (fun request => !request.reads) =
        (exchanges.map Prod.fst).filter (fun request => !request.reads) →
      (∃ others last, Dialogue (start ⟨true, proceed⟩) others last ∧
        others.map Prod.fst = requests) ∧
      ∀ others last, Dialogue (start ⟨true, proceed⟩) others last →
        others.map Prod.fst = requests →
        others.filter (fun exchange => !exchange.1.reads) =
          exchanges.filter (fun exchange => !exchange.1.reads) ∧
        last.environment = after.environment := by
  have hstart := keeps_start proceed
  obtain ⟨evaluated, lines, kept, hturn, hexpressions, hkept, htext⟩ := h.keeps hstart
  refine ⟨⟨evaluated, lines, hturn, hexpressions, ?_⟩, ?_, ?_⟩
  · rw [hkept.output_eq, htext, String.empty_append]
  · rw [hkept.output_eq]
    exact hkept
  · intro requests hrequests
    have halike := Alike.refl hstart.room
    obtain ⟨middle, hleft, hmiddle⟩ := h.leave_out halike
    rw [List.filter_map] at hrequests
    obtain ⟨others, last, hothers, hmap, hfilter, hlast⟩ := hleft.put_in hrequests halike
    refine ⟨⟨others, last, hothers, hmap⟩, ?_⟩
    intro result final hresult hsame
    obtain ⟨rfl, rfl⟩ := hothers.unique hresult (hsame.trans hmap.symm)
    exact ⟨hfilter, (hmiddle.environment.trans hlast.environment).symm⟩

/-- `1` is printed and taken out, then `2` is printed by an expression that fails, and the
output is looked at. Without the first reading the output is `1` and `2`. -/
theorem dialogue_captured_print :
    (∃ evaluated lines, EvaluatesInTurn .empty evaluated lines .empty ∧
      evaluated.map Prod.fst = [.list [.symbol "print", .int 1],
        .list [.symbol "cons", .symbol "y", .list [.symbol "print", .int 2]]] ∧
      "1\n2\n" = linesText lines) ∧
    ∃ others last, Dialogue (start ⟨true, true⟩) others last ∧
      others.map Prod.fst = [.eval (.list [.symbol "print", .int 1]),
        .evalAll [.list [.symbol "cons", .symbol "y", .list [.symbol "print", .int 2]]],
        .output] ∧
      others.filter (fun exchange => !exchange.1.reads) =
        [(.eval (.list [.symbol "print", .int 1]), .answer (.ok .empty)),
          (.evalAll [.list [.symbol "cons", .symbol "y", .list [.symbol "print", .int 2]]],
            .report ⟨[.ofAnswer (.error (.unboundSymbol "y"))], 1, false⟩)] ∧
      last.environment = .empty := by
  have hdialogue : Dialogue (start ⟨true, true⟩)
      [(.eval (.list [.symbol "print", .int 1]), .answer (.ok .empty)),
        (.takeOutput, .text "1\n"),
        (.evalAll [.list [.symbol "cons", .symbol "y", .list [.symbol "print", .int 2]]],
          .report ⟨[.ofAnswer (.error (.unboundSymbol "y"))], 1, false⟩),
        (.output, .text "2\n")]
      ⟨⟨true, true⟩, .empty, .captured ⟨"2\n".toUTF8, none⟩⟩ := by
    have hprinted : Exchange (start ⟨true, true⟩) (.eval (.list [.symbol "print", .int 1]))
        (.answer (.ok .empty)) ⟨⟨true, true⟩, .empty, .captured ⟨"1\n".toUTF8, none⟩⟩ :=
      .eval ⟨2, rfl⟩
    have hfailed : Exchange (start ⟨true, true⟩)
        (.evalAll [.list [.symbol "cons", .symbol "y", .list [.symbol "print", .int 2]]])
        (.report ⟨[.ofAnswer (.error (.unboundSymbol "y"))], 1, false⟩)
        ⟨⟨true, true⟩, .empty, .captured ⟨"2\n".toUTF8, none⟩⟩ :=
      .evalAll ⟨3, rfl⟩
    exact .cons hprinted (.cons .takeOutput (.cons hfailed (.cons .output .nil)))
  obtain ⟨⟨evaluated, lines, hturn, hexpressions, htext⟩, -, hinvisible⟩ :=
    dialogue_captured hdialogue
  obtain ⟨⟨others, last, hothers, hmap⟩, hsame⟩ :=
    hinvisible [.eval (.list [.symbol "print", .int 1]),
      .evalAll [.list [.symbol "cons", .symbol "y", .list [.symbol "print", .int 2]]], .output] rfl
  obtain ⟨hfilter, henvironment⟩ := hsame others last hothers hmap
  exact ⟨⟨evaluated, lines, hturn, hexpressions, htext⟩, others, last, hothers, hmap, hfilter,
    henvironment⟩

end Session

end Sexpr
