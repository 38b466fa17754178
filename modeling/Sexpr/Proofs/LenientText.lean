import Sexpr.Proofs.Streaming
import Sexpr.Value.Lenient

/-!
# The two texts of a value

The canonical and the lenient text of a value are put together independently of each other.
The one may be broken off, the other is written to its end. As far as the first one goes,
they are the same text.

They part where a chain ends badly. Nothing is written of the canonical text from there on,
while the lenient one has a dot still to come, the terminal, and whatever is open around the
chain. So the beginning that they have in common is never the whole lenient text, and of a
well-formed value, in which no chain ends badly at any depth, it is all of it.
-/

namespace Sexpr

namespace Value

/-! ## Chains that end badly -/

/-- A value is inside itself, and inside of what has it inside one of its elements. -/
inductive Inside (part : Value) : Value → Prop where
  | whole : Inside part part
  | element {value element : Value} (h : element ∈ value.elements)
      (hinside : Inside part element) : Inside part value

theorem WellFormed.inside {part value : Value} (h : value.WellFormed)
    (hinside : part.Inside value) : part.WellFormed := by
  induction hinside with
  | whole => exact h
  | element hmem _ ih => exact ih ((wellFormed_iff.1 h).2 _ hmem)

/-- A value that is not well-formed has a chain inside that ends badly. -/
theorem exists_inside_of_not_wellFormed {value : Value} (h : ¬ value.WellFormed) :
    ∃ part : Value, part.Inside value ∧ part.kind = .pair ∧ part.terminal ≠ empty := by
  induction value with
  | int | real | symbol | empty => exact absurd trivial h
  | pair car cdr ihcar ihcdr =>
      by_cases hcar : car.WellFormed
      · by_cases hend : cdr.terminal = empty
        · have hcdr : ¬ cdr.WellFormed :=
            fun hcdr => h ⟨hcar, isList_of_terminal_eq hend, hcdr⟩
          obtain ⟨part, hinside, hkind, hbad⟩ := ihcdr hcdr
          cases hinside with
          -- The rest of a chain ends as the chain does.
          | whole => exact absurd hend hbad
          | element hmem hinside =>
              exact ⟨part, .element (List.mem_cons_of_mem _ hmem) hinside, hkind, hbad⟩
        · exact ⟨pair car cdr, .whole, rfl, hend⟩
      · obtain ⟨part, hinside, hbad⟩ := ihcar hcar
        exact ⟨part, .element List.mem_cons_self hinside, hbad⟩

theorem not_wellFormed_iff {value : Value} :
    ¬ value.WellFormed ↔
      ∃ part : Value, part.Inside value ∧ part.kind = .pair ∧ part.terminal ≠ empty := by
  constructor
  · exact exists_inside_of_not_wellFormed
  · intro ⟨part, hinside, hkind, hbad⟩ hwell
    exact hbad ((wellFormed_iff.1 (hwell.inside hinside)).1 hkind)

/-! ## What the texts have in common -/

/-- Behind the elements of a chain that ends badly nothing is written of the canonical
text. -/
theorem exists_lenientRestOnto_of_atom {value : Value} (h : value.isList = false)
    (text : String) :
    ∃ more, value.lenientRestOnto text = text ++ (value.streamedRest ++ more) ∧
      (more = "" ↔ value.isList = true ∧ value.WellFormed) := by
  refine ⟨" . " ++ (value.atomText ++ ")"), ?_, ?_⟩
  · cases value with
    | int | real | symbol =>
        simp only [streamedRest, lenientRestOnto, String.empty_append, String.append_assoc]
    | pair | empty => cases h
  · simp [h]

/-- The lenient text goes on where the canonical one has been broken off, and goes no
further where it has not. -/
theorem exists_lenientOnto_eq (value : Value) :
    (∀ text, ∃ more, value.lenientOnto text = text ++ (value.streamed ++ more) ∧
      (more = "" ↔ value.WellFormed)) ∧
    (∀ text, ∃ more, value.lenientRestOnto text = text ++ (value.streamedRest ++ more) ∧
      (more = "" ↔ value.isList = true ∧ value.WellFormed)) := by
  induction value with
  | int | real | symbol =>
      refine ⟨fun text => ⟨"", ?_, iff_of_true rfl trivial⟩,
        fun text => exists_lenientRestOnto_of_atom rfl text⟩
      rw [String.append_empty]
      rfl
  | empty =>
      refine ⟨fun text => ⟨"", ?_, iff_of_true rfl trivial⟩,
        fun text => ⟨"", ?_, iff_of_true rfl ⟨rfl, trivial⟩⟩⟩
      · rw [String.append_empty]
        rfl
      · rw [String.append_empty]
        rfl
  | pair car cdr ihcar ihcdr =>
      -- An opening mark, the first element, the rest: only the mark differs.
      have hboth : ∀ mark text, ∃ more, cdr.lenientRestOnto (car.lenientOnto (text ++ mark)) =
            text ++ (mark ++ (car.streamed ++ if car.WellFormed then cdr.streamedRest else "") ++
              more) ∧
          (more = "" ↔ (pair car cdr).WellFormed) := by
        intro mark text
        obtain ⟨first, hfirst, hcar⟩ := ihcar.1 (text ++ mark)
        obtain ⟨rest, hrest, hcdr⟩ := ihcdr.2 (car.lenientOnto (text ++ mark))
        rw [hrest, hfirst]
        by_cases hwell : car.WellFormed
        · refine ⟨rest, ?_, hcdr.trans (and_iff_right hwell).symm⟩
          rw [if_pos hwell, hcar.2 hwell]
          simp only [String.append_assoc, String.empty_append]
        · have hfirst : first ≠ "" := fun hempty => hwell (hcar.1 hempty)
          refine ⟨first ++ (cdr.streamedRest ++ rest), ?_, iff_of_false ?_ fun h => hwell h.1⟩
          · rw [if_neg hwell]
            simp only [String.append_assoc, String.empty_append]
          · simp [hfirst]
      refine ⟨fun text => ?_, fun text => ?_⟩
      · rw [lenientOnto, streamed]
        exact hboth "(" text
      · rw [lenientRestOnto, streamedRest]
        simpa only [isList, true_and] using hboth " " text

theorem exists_lenient_eq (value : Value) :
    ∃ more, value.lenient = value.streamed ++ more ∧ (more = "" ↔ value.WellFormed) := by
  obtain ⟨more, hmore, hwell⟩ := value.exists_lenientOnto_eq.1 ""
  exact ⟨more, hmore.trans String.empty_append, hwell⟩

theorem lenient_of_render {value : Value} {text : String} (h : value.render = .ok text) :
    value.lenient = text := by
  obtain ⟨more, hlenient, hmore⟩ := value.exists_lenient_eq
  have hwell := wellFormed_of_render_eq_ok h
  rw [render_eq, if_pos hwell] at h
  cases h
  rw [hlenient, hmore.2 hwell, String.append_empty]

/-- What is reported of a value is its lenient text in either case. -/
theorem describe_eq_lenient (value : Value) : value.describe = value.lenient := by
  rw [describe]
  split
  · next text hrender => exact (lenient_of_render hrender).symm
  · rfl

/-- There is no canonical text of a value if and only if a chain inside of it ends badly.
Its lenient text is then begun and broken off, in front of something that is still to come;
and otherwise the two texts are the same. -/
theorem render_lenient (value : Value) :
    ((∃ error, value.render = .error error) ↔
      ∃ part : Value, part.Inside value ∧ part.kind = .pair ∧ part.terminal ≠ empty) ∧
    (∀ error, value.render = .error error → error = .malformedList ∧
      ∃ written more, CharSink.unbounded.receive value.writeTo = (.error error, written) ∧
        value.lenient = written ++ more ∧ more ≠ "") ∧
    ∀ text, value.render = .ok text → value.lenient = text := by
  refine ⟨?_, fun error herror => ?_, fun text htext => lenient_of_render htext⟩
  · rw [← not_wellFormed_iff, render_eq]
    by_cases hwell : value.WellFormed
    · simp [hwell]
    · simp [hwell]
  · obtain ⟨rfl, hill⟩ := render_eq_error herror
    obtain ⟨more, hlenient, hmore⟩ := value.exists_lenient_eq
    refine ⟨rfl, value.streamed, more, ?_, hlenient, fun hempty => hill (hmore.1 hempty)⟩
    rw [receive_writeTo, verdict, if_neg hill]

/-- The first element of `((1 2 . 3) 4)` ends badly, so only `((1 2` is written before the
error. With a proper list in its place the two texts are the same. -/
theorem render_lenient_dotted :
    (list [pair (int 1) (pair (int 2) (int 3)), int 4]).render = .error .malformedList ∧
    (∃ part : Value, part.Inside (list [pair (int 1) (pair (int 2) (int 3)), int 4]) ∧
      part.kind = .pair ∧ part.terminal ≠ empty) ∧
    CharSink.unbounded.receive (list [pair (int 1) (pair (int 2) (int 3)), int 4]).writeTo =
      (.error .malformedList, "((1 2") ∧
    (∃ more, (list [pair (int 1) (pair (int 2) (int 3)), int 4]).lenient = "((1 2" ++ more ∧
      more ≠ "") ∧
    (list [list [int 1, int 2], int 4]).render = .ok "((1 2) 4)" ∧
    (list [list [int 1, int 2], int 4]).lenient = "((1 2) 4)" := by
  obtain ⟨hiff, herror, -⟩ :=
    render_lenient (list [pair (int 1) (pair (int 2) (int 3)), int 4])
  obtain ⟨-, -, hok⟩ := render_lenient (list [list [int 1, int 2], int 4])
  have hfails : (list [pair (int 1) (pair (int 2) (int 3)), int 4]).render =
      .error .malformedList := rfl
  obtain ⟨-, written, more, hwritten, hlenient, hmore⟩ := herror _ hfails
  obtain rfl : "((1 2" = written := congrArg Prod.snd hwritten
  exact ⟨hfails, hiff.1 ⟨_, hfails⟩, hwritten, ⟨more, hlenient, hmore⟩, rfl, hok _ rfl⟩

end Value

end Sexpr
