import Sexpr.Json.Compact
import Sexpr.Json.ValueForm
import Sexpr.Proofs.DocumentReading
import Sexpr.Proofs.FloatStorage

/-!
# Values read back from their documents

The document of a value says everything about it, but for its reals: one that is not
finite is written as null, and null is no number. So a value is read back if it has no
such real, and if its document may be opened as deeply as it has to be. Every pair
opens two levels of it, an object and the array of its halves, so a list of 63 numbers
is still read and one of 64 is not.

Finite reals are left out here. They are written with as many digits as tell them from
every other real, but they are read by a computation that rounds on its way.
-/

namespace Sexpr

namespace Value

/-! ## Reals and levels -/

/-- The reals in a value, from left to right. -/
def reals : Value → List Float
  | real x => [x]
  | pair car cdr => car.reals ++ cdr.reals
  | _ => []

/-- How many arrays and objects are open at a time in the document of a value. -/
def depth : Value → Nat
  | pair car cdr => 2 + max car.depth cdr.depth
  | _ => 1

/-- A list opens two levels for each of its elements. -/
theorem depth_list {items : List Value} (h : ∀ item ∈ items, item.depth = 1) :
    (list items).depth = 2 * items.length + 1 := by
  induction items with
  | nil => rfl
  | cons item items ih =>
      have hitem := h item List.mem_cons_self
      have hitems := ih fun other hother => h other (List.mem_cons_of_mem _ hother)
      change 2 + max item.depth (list items).depth = _
      rw [hitem, hitems, List.length_cons]
      omega

/-! ## Documents of values -/

/-- A real that is not finite is written as null. -/
theorem ofReal_of_not_finite {x : Float} (h : x.isFinite = false) : Json.ofReal x = .null := by
  change x.toModel.unpack.isFinite = false at h
  rw [Json.ofReal, Layout.finite?, Binary64.ofFloat_eq]
  cases hx : x.toModel.unpack with
  | infinity | notANumber => rfl
  | zero | finite =>
      rw [hx] at h
      cases h

/-- Every number in a document of a value is a numeral. -/
theorem readable_toJson {value : Value} (h : ∀ x ∈ value.reals, x.isFinite = false) :
    value.toJson.Readable := by
  induction value with
  | int n => exact ⟨trivial, Json.readable_ofInt n.toInt, trivial⟩
  | real x =>
      refine ⟨trivial, ?_, trivial⟩
      rw [ofReal_of_not_finite (h x List.mem_cons_self)]
      trivial
  | symbol name => exact ⟨trivial, trivial, trivial⟩
  | pair car cdr ihcar ihcdr =>
      have hcar := ihcar fun x hx => h x (List.mem_append_left _ hx)
      have hcdr := ihcdr fun x hx => h x (List.mem_append_right _ hx)
      exact ⟨trivial, ⟨hcar, hcdr, trivial⟩, trivial⟩
  | empty => exact ⟨trivial, trivial⟩

/-! ## Reading -/

theorem parts?_jsonOfKind (kind : Kind) (contents : Json) (levels : Nat) :
    parts? false levels (jsonOfKind kind contents) = some (kind, some contents, false) := by
  cases kind <;> rfl

theorem ofJsonWithin?_atom {kind : Kind} (h : kind ≠ .pair) (contents : Json) (levels : Nat) :
    ofJsonWithin? false levels (jsonOfKind kind contents) =
      if 1 ≤ levels then atomOfJson? kind (some contents) else none := by
  cases levels with
  | zero => rfl
  | succ levels =>
      rw [ofJsonWithin?, parts?_jsonOfKind, if_pos (by omega)]
      cases kind with
      | pair => exact absurd rfl h
      | int | real | symbol | empty => rfl

theorem ofJsonWithin?_empty (levels : Nat) :
    ofJsonWithin? false levels empty.toJson = if 1 ≤ levels then some empty else none := by
  cases levels with
  | zero => rfl
  | succ levels =>
      rw [if_pos (by omega)]
      rfl

theorem ofJsonWithin?_pair (car cdr : Json) (levels : Nat) :
    ofJsonWithin? false (levels + 2) (jsonOfKind .pair (.array [car, cdr])) =
      (ofJsonWithin? false levels car).bind fun first =>
        (ofJsonWithin? false levels cdr).map (pair first) := by
  rw [ofJsonWithin?, parts?_jsonOfKind]
  dsimp only
  cases ofJsonWithin? false levels car with
  | none => rfl
  | some first => cases ofJsonWithin? false levels cdr <;> rfl

/-- The object of a pair needs one level and the array of its halves another. -/
theorem ofJsonWithin?_pair_one (contents : Json) :
    ofJsonWithin? false 1 (jsonOfKind .pair contents) = none := by
  rw [ofJsonWithin?, parts?_jsonOfKind]
  split
  · rfl
  · next heq =>
      cases heq
      rfl
  · rfl

theorem atomOfJson?_ofInt (n : Int64) :
    atomOfJson? .int (some (.ofInt n.toInt)) = some (int n) := by
  have hinteger : (Json.ofInt n.toInt).integer? = some n.toInt := by
    simp only [Json.ofInt, Json.integer?, Numeral.ofLiteral?_toString, Numeral.integer?_ofInt]
  have hrange : Int64.minValue.toInt ≤ n.toInt ∧ n.toInt ≤ Int64.maxValue.toInt :=
    ⟨n.minValue_le_toInt, n.toInt_le⟩
  simp only [atomOfJson?, hinteger, if_pos hrange, Int64.ofInt_toInt]

theorem reals_depth_pair_iff {car cdr : Value} {levels : Nat} :
    (pair car cdr).reals = [] ∧ (pair car cdr).depth ≤ levels + 2 ↔
      (car.reals = [] ∧ car.depth ≤ levels) ∧ cdr.reals = [] ∧ cdr.depth ≤ levels := by
  simp only [reals, depth, List.append_eq_nil_iff]
  constructor
  · intro ⟨⟨hcar, hcdr⟩, hdepth⟩
    exact ⟨⟨hcar, by omega⟩, hcdr, by omega⟩
  · intro ⟨⟨hcar, hleft⟩, hcdr, hright⟩
    exact ⟨⟨hcar, hcdr⟩, by omega⟩

/-- What is read of a value in its document, with so many levels. -/
theorem ofJsonWithin?_toJson {value : Value} (h : ∀ x ∈ value.reals, x.isFinite = false)
    (levels : Nat) :
    ofJsonWithin? false levels value.toJson =
      if value.reals = [] ∧ value.depth ≤ levels then some value else none := by
  induction value generalizing levels with
  | int n =>
      rw [toJson, ofJsonWithin?_atom (by decide), atomOfJson?_ofInt]
      simp [reals, depth]
  | real x =>
      rw [toJson, ofJsonWithin?_atom (by decide), ofReal_of_not_finite (h x List.mem_cons_self)]
      simp [reals, atomOfJson?, Json.real?]
  | symbol name =>
      rw [toJson, ofJsonWithin?_atom (by decide)]
      simp [reals, depth, atomOfJson?, Json.ofText]
  | empty =>
      rw [ofJsonWithin?_empty]
      simp [reals, depth]
  | pair car cdr ihcar ihcdr =>
      match levels with
      | 0 => rw [ofJsonWithin?, if_neg (by simp [depth])]
      | 1 => rw [toJson, ofJsonWithin?_pair_one, if_neg (by simp only [depth]; omega)]
      | levels + 2 =>
          rw [toJson, ofJsonWithin?_pair, ihcar fun x hx => h x (List.mem_append_left _ hx),
            ihcdr fun x hx => h x (List.mem_append_right _ hx)]
          simp only [reals_depth_pair_iff]
          by_cases hcar : car.reals = [] ∧ car.depth ≤ levels
          · by_cases hcdr : cdr.reals = [] ∧ cdr.depth ≤ levels <;> simp [hcar, hcdr]
          · simp [hcar]

/-- A value without finite reals is read back from its document if and only if it has
no reals at all and opens no more than 127 arrays and objects at a time. Then it is the
value that was written. -/
theorem parseJson?_toJson {value : Value} (h : ∀ x ∈ value.reals, x.isFinite = false) :
    ((∃ result, parseJson? value.toJson.compact = some result) ↔
      value.reals = [] ∧ value.depth ≤ 127) ∧
    ∀ result, parseJson? value.toJson.compact = some result → result = value := by
  have hparse : parseJson? value.toJson.compact =
      if value.reals = [] ∧ value.depth ≤ 127 then some value else none := by
    rw [parseJson?, Json.parse?_compact (readable_toJson h)]
    exact ofJsonWithin?_toJson h 127
  rw [hparse]
  by_cases hfits : value.reals = [] ∧ value.depth ≤ 127
  · rw [if_pos hfits]
    refine ⟨⟨fun _ => hfits, fun _ => ⟨value, rfl⟩⟩, fun result hresult => ?_⟩
    exact (Option.some.inj hresult).symm
  · rw [if_neg hfits]
    exact ⟨⟨nofun, fun h => absurd h hfits⟩, nofun⟩

/-- A list of 63 symbols and one of 64, each with a name that has to be escaped, and an
infinite real. -/
theorem parseJson?_toJson_symbols :
    parseJson? (list (List.replicate 63 (symbol "\"\n"))).toJson.compact =
      some (list (List.replicate 63 (symbol "\"\n"))) ∧
    (¬ ∃ result, parseJson? (list (List.replicate 64 (symbol "\"\n"))).toJson.compact =
      some result) ∧
    ¬ ∃ result, parseJson? (real (Float.ofBits 0x7FF0000000000000)).toJson.compact =
      some result := by
  have hdepth : ∀ n, (list (List.replicate n (symbol "\"\n"))).depth = 2 * n + 1 := by
    intro n
    rw [depth_list fun item hitem => by rw [List.eq_of_mem_replicate hitem]; rfl,
      List.length_replicate]
  refine ⟨?_, ?_, ?_⟩
  · obtain ⟨hread, hsame⟩ := @parseJson?_toJson (list (List.replicate 63 (symbol "\"\n"))) nofun
    obtain ⟨result, hresult⟩ := hread.2 ⟨rfl, by rw [hdepth]⟩
    rw [hresult, hsame result hresult]
  · obtain ⟨hread, -⟩ := @parseJson?_toJson (list (List.replicate 64 (symbol "\"\n"))) nofun
    intro h
    exact absurd (hread.1 h).2 (by rw [hdepth]; decide)
  · have hinfinite : ∀ x ∈ (real (Float.ofBits 0x7FF0000000000000)).reals, x.isFinite = false := by
      decide +kernel
    obtain ⟨hread, -⟩ := parseJson?_toJson hinfinite
    intro h
    exact absurd (hread.1 h).1 (List.cons_ne_nil _ _)

end Value

end Sexpr
