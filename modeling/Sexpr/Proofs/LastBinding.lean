import Mathlib.Data.Finset.Card
import Mathlib.Data.List.Sort
import Sexpr.Eval.Action
import Sexpr.Proofs.Bindings
import Sexpr.Proofs.Names

/-!
# The last binding of a name is its value

Names may be bound in any order, again and again, and some of them are turned away on the
way. What has become of an environment in the end depends on one thing only, which is the
value that each name was given last. All that can be asked of an environment can be answered
from a list of the bindings that were accepted (`Reflects`).

The order in which the names were bound cannot be seen, and nothing has to be sorted to hide
it. A table of names is an ascending list of entries, and there is no more than one ascending
list with the same entries (`NameMap.eq_of_find?_eq`).
-/

namespace Sexpr

/-! ## Ascending entries -/

instance : Std.Irrefl Precedes where
  irrefl name := List.lt_irrefl (nameKey name)

theorem Precedes.not_precedes {first second : String} (h : Precedes first second) :
    ¬ Precedes second first :=
  fun k => Std.Irrefl.irrefl first (h.trans k)

namespace Entries

variable {α : Type} {entries : Entries α}

theorem isSome_find?_iff {name : String} :
    (entries.find? name).isSome = true ↔ name ∈ entries.map (·.1) := by
  induction entries with
  | nil => exact iff_of_false Bool.false_ne_true List.not_mem_nil
  | cons entry rest ih =>
      rw [find?, List.map_cons, List.mem_cons]
      split
      · next heq => exact iff_of_true rfl (.inl heq.symm)
      · next hne => exact ih.trans (or_iff_right (Ne.symm hne)).symm

/-- Where no name stands twice, what is found is what there is. -/
theorem find?_eq_some_iff (h : entries.Ascending) {name : String} {value : α} :
    entries.find? name = some value ↔ (name, value) ∈ entries := by
  induction entries with
  | nil => exact iff_of_false nofun List.not_mem_nil
  | cons entry rest ih =>
      have ⟨hfirst, hrest⟩ := List.pairwise_cons.1 h
      rw [find?, List.mem_cons]
      split
      · next heq =>
          have hnot : (name, value) ∉ rest := fun hmem =>
            Std.Irrefl.irrefl name (heq ▸ hfirst _ hmem)
          rw [or_iff_left hnot, Option.some_inj, Prod.ext_iff]
          exact ⟨fun hvalue => ⟨heq.symm, hvalue.symm⟩, fun hboth => hboth.2.symm⟩
      · next hne =>
          have hnot : (name, value) ≠ entry := fun heq => hne (heq ▸ rfl)
          rw [or_iff_right hnot]
          exact ih hrest

theorem eq_of_find?_eq {others : Entries α} (h : entries.Ascending) (k : others.Ascending)
    (hfind : ∀ name, entries.find? name = others.find? name) : entries = others := by
  have : Std.Irrefl fun a b : String × α => Precedes a.1 b.1 :=
    ⟨fun entry => Std.Irrefl.irrefl entry.1⟩
  have : Std.Antisymm fun a b : String × α => Precedes a.1 b.1 :=
    ⟨fun _ _ hab hba => absurd hba hab.not_precedes⟩
  refine List.Pairwise.eq_of_mem_iff h k fun entry => ?_
  rw [← find?_eq_some_iff h, ← find?_eq_some_iff k, hfind]

end Entries

namespace NameMap

variable {α : Type} {map : NameMap α}

/-- Two tables with the same meanings are the same table. -/
theorem eq_of_find?_eq {other : NameMap α} (h : ∀ name, map.find? name = other.find? name) :
    map = other := by
  obtain ⟨entries, hentries⟩ := map
  obtain ⟨others, hothers⟩ := other
  obtain rfl : entries = others := Entries.eq_of_find?_eq hentries hothers h
  rfl

theorem mem_names_iff {name : String} : name ∈ map.names ↔ map.contains name = true :=
  Entries.isSome_find?_iff.symm

theorem names_pairwise (map : NameMap α) : map.names.Pairwise Precedes :=
  List.pairwise_map.2 map.ascending

theorem length_names (map : NameMap α) : map.names.length = map.size :=
  List.length_map _

theorem isEmpty_iff_names_eq_nil : map.isEmpty = true ↔ map.names = [] :=
  List.isEmpty_iff.trans List.map_eq_nil_iff.symm

end NameMap

/-! ## One call after the other -/

/-- The value that a name was given last. -/
def lastValue? (bindings : List (String × Value)) (name : String) : Option Value :=
  bindings.reverse.lookup name

theorem lastValue?_cons (binding : String × Value) (bindings : List (String × Value))
    (name : String) :
    lastValue? (binding :: bindings) name =
      (lastValue? bindings name).or (if name = binding.1 then some binding.2 else none) := by
  rw [lastValue?, List.reverse_cons, List.lookup_append, lastValue?, List.lookup_cons]
  by_cases hname : name = binding.1
  · rw [if_pos hname, hname, beq_self_eq_true]
  · rw [if_neg hname, beq_false_of_ne hname]
    rfl

theorem isSome_lastValue?_iff {bindings : List (String × Value)} {name : String} :
    (lastValue? bindings name).isSome = true ↔ name ∈ bindings.map (·.1) := by
  rw [lastValue?, List.lookup_isSome_iff, List.mem_map]
  simp only [List.mem_reverse, beq_iff_eq, eq_comm (a := name)]

namespace Environment

variable {environment extended : Environment} {name : String} {value : Value} {error : Error}

/-- Binds names one after the other, each in the environment that the call before it has
left, whether that call was accepted or not. -/
def defineAll (environment : Environment) (calls : List (String × Value)) : Environment :=
  calls.foldl (fun environment call => (environment.define call.1 call.2).2) environment

/-- The bindings that are made when names are bound one after the other. -/
def accepted (environment : Environment) : List (String × Value) → List (String × Value)
  | [] => []
  | (name, value) :: calls =>
      match environment.define name value with
      | (.ok (), extended) => (name, value) :: extended.accepted calls
      | (.error _, extended) => extended.accepted calls

theorem defineAll_cons {answer : Except Error Unit}
    (h : environment.define name value = (answer, extended)) (calls : List (String × Value)) :
    environment.defineAll ((name, value) :: calls) = extended.defineAll calls := by
  rw [defineAll, List.foldl_cons, h]
  rfl

theorem accepted_cons_of_ok (h : environment.define name value = (.ok (), extended))
    (calls : List (String × Value)) :
    environment.accepted ((name, value) :: calls) = (name, value) :: extended.accepted calls := by
  rw [accepted, h]

theorem accepted_cons_of_error (h : environment.define name value = (.error error, extended))
    (calls : List (String × Value)) :
    environment.accepted ((name, value) :: calls) = extended.accepted calls := by
  rw [accepted, h]

theorem defineAll_append (environment : Environment) (calls more : List (String × Value)) :
    environment.defineAll (calls ++ more) = (environment.defineAll calls).defineAll more :=
  List.foldl_append

/-- Only the names of operators are turned away, and then nothing is changed. -/
theorem define_eq_error_iff :
    environment.define name value = (.error error, extended) ↔
      error = .reservedName name ∧ extended = environment ∧
        OperatorTable.standard.contains name = true := by
  rw [OperatorTable.contains_standard]
  cases hname : Operator.ofName? name with
  | some operator => simp [define_of_reserved hname, eq_comm]
  | none => simp [define_of_free hname]

theorem contains_standard_of_define (h : environment.define name value = (.ok (), extended)) :
    OperatorTable.standard.contains name = false := by
  rw [OperatorTable.contains_standard, (define_eq_ok h).1]
  rfl

/-- Whether a binding is made depends on its name and on nothing else. -/
theorem accepted_eq (environment : Environment) (calls : List (String × Value)) :
    environment.accepted calls =
      calls.filter fun call => !OperatorTable.standard.contains call.1 := by
  induction calls generalizing environment with
  | nil => rfl
  | cons call calls ih =>
      obtain ⟨name, value⟩ := call
      rcases h : environment.define name value with ⟨answer, extended⟩
      cases answer with
      | ok =>
          have hfree : (!OperatorTable.standard.contains name) = true := by
            rw [contains_standard_of_define h]
            rfl
          rw [accepted_cons_of_ok h, ih, List.filter_cons, if_pos hfree]
      | error error =>
          have hreserved : ¬ (!OperatorTable.standard.contains name) = true := by
            rw [(define_eq_error_iff.1 h).2.2]
            exact Bool.false_ne_true
          rw [accepted_cons_of_error h, ih, List.filter_cons, if_neg hreserved]

/-- A name has the value that it was given last, or if it was given none the one it had. -/
theorem lookup_defineAll (environment : Environment) (calls : List (String × Value))
    (name : String) :
    (environment.defineAll calls).lookup name =
      match lastValue? (environment.accepted calls) name with
      | some value => .ok value
      | none => environment.lookup name := by
  induction calls generalizing environment with
  | nil => rfl
  | cons call calls ih =>
      obtain ⟨other, value⟩ := call
      rcases h : environment.define other value with ⟨answer, extended⟩
      rw [defineAll_cons h, ih]
      cases answer with
      | error error => rw [accepted_cons_of_error h, eq_of_define_error h]
      | ok =>
          rw [accepted_cons_of_ok h, lastValue?_cons, lookup_define h]
          cases lastValue? (extended.accepted calls) name with
          | some later => rfl
          | none =>
              by_cases hname : name = other
              · rw [if_pos hname, if_pos hname]
                rfl
              · rw [if_neg hname, if_neg hname]
                rfl

/-! ## What can be seen of an environment -/

theorem toOption_lookup (environment : Environment) (name : String) :
    (environment.lookup name).toOption = environment.bindings.find? name := by
  rw [lookup]
  cases environment.bindings.find? name <;> rfl

theorem contains_eq_isSome (environment : Environment) (name : String) :
    environment.contains name = (environment.lookup name).toOption.isSome := by
  rw [toOption_lookup]
  rfl

/-- An environment has nothing to it but the values of names. -/
theorem eq_of_lookup_eq {other : Environment}
    (h : ∀ name, environment.lookup name = other.lookup name) : environment = other := by
  obtain ⟨bindings⟩ := environment
  obtain ⟨others⟩ := other
  refine congrArg mk (NameMap.eq_of_find?_eq fun name => ?_)
  rw [← toOption_lookup ⟨bindings⟩, ← toOption_lookup ⟨others⟩, h]

/-- An environment is the finite map that is left of a list of bindings when every name keeps
the value that it was given last. -/
structure Reflects (environment : Environment) (bindings : List (String × Value)) : Prop where
  lookup : ∀ name, environment.lookup name =
    match lastValue? bindings name with
    | some value => .ok value
    | none => .error (.unboundSymbol name)
  contains : ∀ name,
    environment.contains name = true ↔ ∃ value, environment.lookup name = .ok value
  mem_names : ∀ name, name ∈ environment.names ↔ name ∈ bindings.map (·.1)
  names_nodup : environment.names.Nodup
  names_ascending : environment.names.Pairwise Precedes
  size : environment.size = (bindings.map (·.1)).toFinset.card
  isEmpty : environment.isEmpty = true ↔ bindings = []

theorem Reflects.toOption_lookup {bindings : List (String × Value)}
    (h : environment.Reflects bindings) (name : String) :
    (environment.lookup name).toOption = lastValue? bindings name := by
  rw [h.lookup]
  cases lastValue? bindings name <;> rfl

/-- Everything else follows from what is looked up. -/
theorem Reflects.of_lookup {bindings : List (String × Value)}
    (h : ∀ name, environment.lookup name =
      match lastValue? bindings name with
      | some value => .ok value
      | none => .error (.unboundSymbol name)) : environment.Reflects bindings := by
  have hcontains : ∀ name, environment.contains name = true ↔ name ∈ bindings.map (·.1) := by
    intro name
    rw [contains_eq_isSome, h, ← isSome_lastValue?_iff]
    cases lastValue? bindings name <;> exact Iff.rfl
  have hnames : ∀ name, name ∈ environment.names ↔ name ∈ bindings.map (·.1) :=
    fun name => NameMap.mem_names_iff.trans (hcontains name)
  have hascending : environment.names.Pairwise Precedes := environment.bindings.names_pairwise
  refine ⟨h, fun name => ?_, hnames, hascending.nodup, hascending, ?_, ?_⟩
  · rw [contains_eq_isSome]
    cases environment.lookup name <;> simp [Except.toOption]
  · have hset : environment.names.toFinset = (bindings.map (·.1)).toFinset :=
      List.toFinset.ext hnames
    rw [← hset, List.toFinset_card_of_nodup hascending.nodup]
    exact environment.bindings.length_names.symm
  · calc
      environment.isEmpty = true ↔ environment.names = [] := NameMap.isEmpty_iff_names_eq_nil
      _ ↔ ∀ name, name ∉ environment.names := List.eq_nil_iff_forall_not_mem
      _ ↔ ∀ name, name ∉ bindings.map (·.1) := forall_congr' fun name => not_congr (hnames name)
      _ ↔ bindings.map (·.1) = [] := List.eq_nil_iff_forall_not_mem.symm
      _ ↔ bindings = [] := List.map_eq_nil_iff

/-- Environments are equal if the values that names were given last are. -/
theorem Reflects.eq_iff {other : Environment} {bindings others : List (String × Value)}
    (h : environment.Reflects bindings) (k : other.Reflects others) :
    environment = other ↔ ∀ name, lastValue? bindings name = lastValue? others name := by
  constructor
  · rintro rfl name
    rw [← h.toOption_lookup, k.toOption_lookup]
  · intro hlast
    refine eq_of_lookup_eq fun name => ?_
    rw [h.lookup, k.lookup, hlast]

theorem reflects_defineAll (calls : List (String × Value)) :
    (empty.defineAll calls).Reflects (empty.accepted calls) :=
  .of_lookup fun name => lookup_defineAll empty calls name

/-- One call more: a binding is made, or its name is turned away and nothing is changed. -/
theorem define_after_calls (calls : List (String × Value)) (name : String) (value : Value)
    (sink : ByteSink) :
    Action.define name value ⟨environment.defineAll calls, sink⟩ =
      .done (if OperatorTable.standard.contains name then .error (.reservedName name) else .ok ())
        ⟨environment.defineAll (calls ++ [(name, value)]), sink⟩ := by
  rw [Action.define, defineAll_append]
  rcases h : (environment.defineAll calls).define name value with ⟨answer, extended⟩
  rw [defineAll_cons h]
  cases answer with
  | ok =>
      rw [if_neg (Bool.eq_false_iff.1 (contains_standard_of_define h))]
      rfl
  | error error =>
      obtain ⟨rfl, -, hname⟩ := define_eq_error_iff.1 h
      rw [if_pos hname]
      rfl

/-- Whatever names are bound one after the other, the bindings that are made are those of
names that no operator has, and a call that is turned away changes nothing. The environment
in the end is the finite map of the last values that names were given. Two of them are equal
if and only if these values are. -/
theorem determined_by_last_values (calls : List (String × Value)) :
    empty.accepted calls = calls.filter (fun call => !OperatorTable.standard.contains call.1) ∧
    (∀ name value sink, Action.define name value ⟨empty.defineAll calls, sink⟩ =
      .done (if OperatorTable.standard.contains name then .error (.reservedName name) else .ok ())
        ⟨empty.defineAll (calls ++ [(name, value)]), sink⟩) ∧
    (∀ name value, OperatorTable.standard.contains name = true →
      empty.defineAll (calls ++ [(name, value)]) = empty.defineAll calls) ∧
    (empty.defineAll calls).Reflects (empty.accepted calls) ∧
    ∀ others, empty.defineAll calls = empty.defineAll others ↔
      ∀ name, lastValue? (empty.accepted calls) name = lastValue? (empty.accepted others) name := by
  refine ⟨accepted_eq empty calls, define_after_calls calls, fun name value hname => ?_,
    reflects_defineAll calls,
    fun others => (reflects_defineAll calls).eq_iff (reflects_defineAll others)⟩
  rw [defineAll_append, defineAll_cons (define_eq_error_iff.2 ⟨rfl, rfl, hname⟩)]
  rfl

/-- A name that is bound twice, and one that is turned away at last. -/
theorem determined_by_last_values_reserved :
    OperatorTable.standard.contains "car" = true ∧
    empty.defineAll ([("y", .int 1), ("x", .empty), ("y", .int 2)] ++ [("car", .int 3)]) =
      empty.defineAll [("y", .int 1), ("x", .empty), ("y", .int 2)] := by
  have hname : OperatorTable.standard.contains "car" = true := by decide
  exact ⟨hname, (determined_by_last_values _).2.2.1 "car" (.int 3) hname⟩

end Environment

end Sexpr
