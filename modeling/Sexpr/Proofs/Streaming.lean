import Sexpr.Proofs.WellFormed
import Sexpr.Value.Canonical

/-!
# The canonical text as a stream

The canonical text is written in small pieces, and there are two reasons for it to be broken
off: a chain turns out to end badly, or the sink has no room for the next piece. Either can
come at any depth.

To a sink it makes no difference how a text is cut into pieces, because it takes what it has
room for of a piece that does not fit. So two pieces in a row are one piece
(`CharSink.write_append`), and whatever has been written before an error is one piece as
well. Writing a value therefore amounts to a single write, with an error behind it if the
value is not well-formed (`writeTo_eq`). What is written there depends on the value alone.
So there is one place left where a sink can run full, and the sink comes to it first.
-/

namespace Sexpr

/-! ## The beginning of a text -/

theorem take_toList_append_of_le {first second : String} {count : Nat} (h : first.length ≤ count) :
    (first ++ second).toList.take count =
      first.toList ++ second.toList.take (count - first.length) := by
  rw [String.toList_append, List.take_append, String.length_toList, List.take_of_length_le]
  rwa [String.length_toList]

theorem take_toList_append_of_ge {first second : String} {count : Nat} (h : count ≤ first.length) :
    (first ++ second).toList.take count = first.toList.take count := by
  rw [String.toList_append, List.take_append_of_le_length]
  rwa [String.length_toList]

namespace CharSink

/-! ## Pieces -/

theorem write_empty : write "" = pure () := by
  funext sink
  obtain ⟨text, room⟩ := sink
  cases room with
  | none => simp [write, pure, EStateM.pure]
  | some room => simp [write, pure, EStateM.pure]

theorem write_append (first second : String) :
    (write first >>= fun _ => write second) = write (first ++ second) := by
  funext sink
  obtain ⟨text, room⟩ := sink
  cases room with
  | none => simp [write, bind, EStateM.bind, String.append_assoc]
  | some room =>
      simp only [write, bind, EStateM.bind, String.length_append]
      by_cases hfirst : first.length ≤ room
      · simp only [hfirst, if_true]
        by_cases hsecond : second.length ≤ room - first.length
        · have hboth : first.length + second.length ≤ room := by omega
          simp only [hsecond, hboth, if_true, String.append_assoc, Nat.sub_sub]
        · have hboth : ¬ first.length + second.length ≤ room := by omega
          simp only [hsecond, hboth, if_false, take_toList_append_of_le hfirst,
            String.ofList_append, String.ofList_toList, String.append_assoc]
      · -- The second piece is not reached, and the cut is within the first.
        have hboth : ¬ first.length + second.length ≤ room := by omega
        have hcut : room ≤ first.length := by omega
        simp only [hfirst, hboth, if_false, take_toList_append_of_ge hcut]

/-! ## One piece and an end -/

/-- Writes one piece, and ends in a certain way behind it. -/
def deliver (piece : String) (result : Except Error Unit) : Writing Unit :=
  write piece >>= fun _ => MonadExcept.ofExcept result

theorem deliver_ok (piece : String) : deliver piece (.ok ()) = write piece :=
  bind_pure_unit

theorem write_deliver (first second : String) (result : Except Error Unit) :
    (write first >>= fun _ => deliver second result) = deliver (first ++ second) result := by
  rw [deliver, deliver, ← bind_assoc, write_append]

/-- Nothing is written behind an error. -/
theorem deliver_error_bind (piece : String) (error : Error) (next : Unit → Writing Unit) :
    (deliver piece (.error error) >>= next) = deliver piece (.error error) := by
  rw [deliver, bind_assoc]
  rfl

theorem throw_eq_deliver (error : Error) : throw error = deliver "" (.error error) := by
  rw [deliver, write_empty, pure_bind]
  rfl

/-- How a writing into a sink ends, and the text that is then in the sink. -/
def receive (sink : CharSink) (writing : Writing Unit) : Except Error Unit × String :=
  match writing sink with
  | .ok () after => (.ok (), after.text)
  | .error error after => (.error error, after.text)

theorem receive_unbounded (piece : String) (result : Except Error Unit) :
    unbounded.receive (deliver piece result) = (result, piece) := by
  have h : unbounded.receive (deliver piece result) = (result, "" ++ piece) := by
    cases result <;> rfl
  rw [h, String.empty_append]

/-- Without room for the piece, the writing does not come to its own end. -/
theorem receive_bounded (piece : String) (result : Except Error Unit) (room : Nat) :
    (bounded room).receive (deliver piece result) =
      if piece.length ≤ room then (result, piece)
      else (.error full, String.ofList (piece.toList.take room)) := by
  by_cases hroom : piece.length ≤ room
  · have hwrite : write piece (bounded room) =
        .ok () ⟨"" ++ piece, some (room - piece.length)⟩ := if_pos hroom
    rw [if_pos hroom, receive, deliver]
    simp only [bind, EStateM.bind, hwrite, String.empty_append]
    cases result <;> rfl
  · have hwrite : write piece (bounded room) =
        .error full ⟨"" ++ String.ofList (piece.toList.take room), some 0⟩ := if_neg hroom
    rw [if_neg hroom, receive, deliver]
    simp only [bind, EStateM.bind, hwrite, String.empty_append]

end CharSink

namespace Value

/-! ## The writer -/

mutual

/-- What is written of the canonical text of a value: all of it, or as much as stands before
the end of the first chain that ends badly. -/
def streamed : Value → String
  | pair car cdr => "(" ++ (car.streamed ++ if car.WellFormed then cdr.streamedRest else "")
  | atom => atom.atomText

/-- What is written of it behind the first element of a list. -/
def streamedRest : Value → String
  | pair car cdr => " " ++ (car.streamed ++ if car.WellFormed then cdr.streamedRest else "")
  | empty => ")"
  | _ => ""

end

/-- How a writing ends that is sound under a condition. -/
def verdict (sound : Prop) [Decidable sound] : Except Error Unit :=
  if sound then .ok () else .error .malformedList

/-- To write a value is to write one piece. Behind a first element, its rest must be a list
for the piece to be whole. -/
theorem writeTo_eq (value : Value) :
    value.writeTo = CharSink.deliver value.streamed (verdict value.WellFormed) ∧
    value.writeRest =
      CharSink.deliver value.streamedRest (verdict (value.isList = true ∧ value.WellFormed)) := by
  induction value with
  | int | real | symbol =>
      exact ⟨(CharSink.deliver_ok _).symm, CharSink.throw_eq_deliver _⟩
  | empty => exact ⟨(CharSink.deliver_ok _).symm, (CharSink.deliver_ok _).symm⟩
  | pair car cdr ihcar ihcdr =>
      -- An opening mark, the first element, the rest: only the mark differs.
      have hboth : ∀ mark, (CharSink.write mark >>= fun _ => car.writeTo >>= fun _ =>
            cdr.writeRest) =
          CharSink.deliver
            (mark ++ (car.streamed ++ if car.WellFormed then cdr.streamedRest else ""))
            (verdict (pair car cdr).WellFormed) := by
        intro mark
        rw [ihcar.1, ihcdr.2]
        by_cases hcar : car.WellFormed
        · have hsound : (pair car cdr).WellFormed ↔ cdr.isList = true ∧ cdr.WellFormed :=
            and_iff_right hcar
          simp only [verdict, hsound, hcar, if_true, CharSink.deliver_ok, CharSink.write_deliver]
        · have hsound : ¬ (pair car cdr).WellFormed := fun hpair => hcar hpair.1
          simp only [verdict, hsound, hcar, if_false, CharSink.deliver_error_bind,
            CharSink.write_deliver, String.append_empty]
      refine ⟨?_, ?_⟩
      · rw [writeTo, hboth, streamed]
      · rw [writeRest, hboth, streamedRest]
        simp only [isList, true_and]

theorem receive_writeTo (value : Value) :
    CharSink.unbounded.receive value.writeTo = (verdict value.WellFormed, value.streamed) := by
  rw [value.writeTo_eq.1, CharSink.receive_unbounded]

/-! ## The text as a whole -/

theorem render_eq_receive (value : Value) :
    value.render =
      let (result, text) := CharSink.unbounded.receive value.writeTo
      result.map fun _ => text := by
  rw [render, CharSink.receive]
  cases value.writeTo .unbounded <;> rfl

theorem render_eq (value : Value) :
    value.render =
      if value.WellFormed then .ok value.streamed else .error .malformedList := by
  rw [render_eq_receive, receive_writeTo, verdict]
  by_cases hwell : value.WellFormed
  · simp only [hwell, if_true]
    rfl
  · simp only [hwell, if_false]
    rfl

theorem wellFormed_of_render_eq_ok {value : Value} {text : String}
    (h : value.render = .ok text) : value.WellFormed := by
  rw [render_eq] at h
  split at h
  · next hwell => exact hwell
  · cases h

theorem render_eq_error {value : Value} {error : Error}
    (h : value.render = .error error) : error = .malformedList ∧ ¬ value.WellFormed := by
  rw [render_eq] at h
  split at h
  · cases h
  · next hill =>
      cases h
      exact ⟨rfl, hill⟩

/-! ## Limited room -/

/-- A sink with limited room receives the beginning of what a sink without a bound receives.
If that fits it is all there, and the writing ends in the same way, be it badly. -/
theorem receive_writeTo_bounded (value : Value) (room : Nat) :
    (CharSink.bounded room).receive value.writeTo =
      let (result, text) := CharSink.unbounded.receive value.writeTo
      if text.length ≤ room then (result, text)
      else (.error (.output "formatter error"), String.ofList (text.toList.take room)) := by
  rw [receive_writeTo, value.writeTo_eq.1]
  exact CharSink.receive_bounded value.streamed (verdict value.WellFormed) room

/-- `((1 2 . 3) 4)` is written up to the `2`, where its first element ends badly. A sink for
five characters takes that in, and one for four is full before. -/
example :
    let value := list [pair (int 1) (pair (int 2) (int 3)), int 4]
    CharSink.unbounded.receive value.writeTo = (.error .malformedList, "((1 2") ∧
    (CharSink.bounded 5).receive value.writeTo = (.error .malformedList, "((1 2") ∧
    (CharSink.bounded 4).receive value.writeTo = (.error (.output "formatter error"), "((1 ") :=
  ⟨rfl, rfl, rfl⟩

end Value

end Sexpr
