import Sexpr.Proofs.DocumentReading
import Sexpr.Session.Report

/-!
# Reports in writing

The texts in a report come from outside. A symbol may have any name, and names get into the
text of a value and into the message of an error as they are. So a text may look like the
end of a report and the beginning of another one, and still no report can be mistaken for
another (`compact_eq_iff`).

Nothing has to be said of the written form to see this. A document that has been written
reads back as itself, whatever is in its strings, so reports with the same text have the
same document. The document of a report shows everything there is in it: an outcome by its
status, a number by its digits, and a category by its word.
-/

namespace Sexpr

/-- Documents that are written alike are the same. -/
theorem Json.compact_inj {first second : Json} (hfirst : first.Readable)
    (hsecond : second.Readable) : first.compact = second.compact ↔ first = second := by
  constructor
  · intro h
    have hread := parse?_compact hfirst
    rw [h, parse?_compact hsecond] at hread
    exact (Option.some.inj hread).symm
  · intro h
    rw [h]

/-! ## Numbers and words -/

theorem Json.ofNat_inj {m n : Nat} : Json.ofNat m = Json.ofNat n ↔ m = n := by
  constructor
  · intro h
    have hdigits : toString (m : Int) = toString (n : Int) := Json.number.inj h
    exact Int.ofNat.inj (toString_int_inj hdigits)
  · intro h
    rw [h]

theorem Json.readable_ofNat (n : Nat) : (Json.ofNat n).Readable :=
  Json.readable_ofInt n

theorem ErrorCode.toJson_inj {first second : ErrorCode} :
    first.toJson = second.toJson ↔ first = second := by
  obtain ⟨m⟩ := first
  obtain ⟨n⟩ := second
  rw [toJson, toJson, Json.ofNat_inj, UInt16.toNat_inj, mk.injEq]

theorem Category.ofText?_text (category : Category) : ofText? category.text = some category := by
  cases category <;> rfl

theorem Category.toJson_inj {first second : Category} :
    first.toJson = second.toJson ↔ first = second := by
  constructor
  · intro h
    have hname : (some first.text : Option String) = some second.text := Json.string.inj h
    have hread := ofText?_text first
    rw [Option.some.inj hname, ofText?_text] at hread
    exact (Option.some.inj hread).symm
  · intro h
    rw [h]

/-! ## Outcomes -/

namespace Outcome

theorem readable_toJson (outcome : Outcome) : outcome.toJson.Readable := by
  cases outcome with
  | value text => exact ⟨trivial, trivial, trivial⟩
  | error code category message =>
      exact ⟨trivial, Json.readable_ofNat code.number.toNat, trivial, trivial, trivial⟩

theorem toJson_inj {first second : Outcome} : first.toJson = second.toJson ↔ first = second := by
  cases first with
  | value text =>
      cases second with
      | value other => simp [toJson, Json.ofMembers, Json.ofText]
      | error => simp [toJson, Json.ofMembers, Json.ofText]
  | error code category message =>
      cases second with
      | value => simp [toJson, Json.ofMembers, Json.ofText]
      | error =>
          simp [toJson, Json.ofMembers, Json.ofText, ErrorCode.toJson_inj, Category.toJson_inj]

end Outcome

/-! ## Reports -/

namespace Report

theorem readableItems_outcomes (outcomes : List Outcome) :
    Json.ReadableItems (outcomes.map Outcome.toJson) := by
  induction outcomes with
  | nil => trivial
  | cons outcome outcomes ih => exact ⟨outcome.readable_toJson, ih⟩

theorem readable_toJson (report : Report) : report.toJson.Readable :=
  ⟨readableItems_outcomes report.outcomes, Json.readable_ofNat report.totalErrors, trivial,
    trivial⟩

theorem toJson_inj {first second : Report} : first.toJson = second.toJson ↔ first = second := by
  obtain ⟨outcomes, errors, early⟩ := first
  obtain ⟨others, failures, stopped⟩ := second
  have houtcomes : outcomes.map Outcome.toJson = others.map Outcome.toJson ↔ outcomes = others :=
    List.map_inj_right fun _ _ => Outcome.toJson_inj.1
  simp [toJson, Json.ofMembers, houtcomes, Json.ofNat_inj]

/-- Reports that are written alike are the same: they have the same outcomes in the same
order, the same number of failures, and both or neither of them was broken off. -/
theorem compact_eq_iff {first second : Report} :
    first.compact = second.compact ↔ first = second :=
  (Json.compact_inj first.readable_toJson second.readable_toJson).trans toJson_inj

/-- A text that looks like the end of an outcome and the beginning of another one. -/
example : (⟨[.value "\"\x7d,\x7b\"status\":\"value\",\"text\":\""], 0, false⟩ : Report).compact ≠
    (⟨[.value "", .value ""], 0, false⟩ : Report).compact := by
  decide +kernel

end Report

end Sexpr
