/-!
# Tables by name

Operators and variables are both looked up by name, and both tables list their
names in order. A table is the list of its entries, strictly ascending by the
UTF-8 bytes of the names. So there is one list for each finite map: tables with
the same entries are equal, whatever the order they were filled in.

Looking up a name and putting one in walk the list from its front. The two laws
of look-up, `find?_insert_self` and `find?_insert_ne`, hold of any list of
entries; only listing the names in order rests on the ascent.
-/

namespace Sexpr

/-! ## The order of names -/

/-- The bytes a name is ordered by. -/
def nameKey (name : String) : List UInt8 :=
  name.toUTF8.data.toList

/-- The order of names. -/
def Precedes (first second : String) : Prop :=
  nameKey first < nameKey second

instance (first second : String) : Decidable (Precedes first second) :=
  inferInstanceAs (Decidable (nameKey first < nameKey second))

theorem nameKey_injective {first second : String} (h : nameKey first = nameKey second) :
    first = second :=
  String.toByteArray_inj.1 (ByteArray.ext (Array.toList_inj.1 h))

theorem Precedes.trans {first second third : String} (h : Precedes first second)
    (k : Precedes second third) : Precedes first third :=
  List.lt_trans h k

/-- Of two different names one precedes the other. -/
theorem precedes_of_not_precedes {first second : String} (h : ¬ Precedes first second)
    (hne : first ≠ second) : Precedes second first := by
  rcases List.le_iff_lt_or_eq.1 (List.not_lt.1 h) with hlt | heq
  · exact hlt
  · exact absurd (nameKey_injective heq.symm) hne

/-! ## Lists of entries -/

/-- Names with what they stand for. -/
abbrev Entries (α : Type) := List (String × α)

namespace Entries

variable {α : Type}

def find? (name : String) : Entries α → Option α
  | [] => none
  | entry :: rest => if entry.1 = name then some entry.2 else find? name rest

/-- Puts an entry in front of the first one its name precedes, or in the place
of the one that has its name. -/
def insert (name : String) (value : α) : Entries α → Entries α
  | [] => [(name, value)]
  | entry :: rest =>
      if entry.1 = name then (name, value) :: rest
      else if Precedes name entry.1 then (name, value) :: entry :: rest
      else entry :: insert name value rest

theorem find?_insert_self (name : String) (value : α) (entries : Entries α) :
    (entries.insert name value).find? name = some value := by
  induction entries with
  | nil => simp [insert, find?]
  | cons entry rest ih =>
      rw [insert]
      split
      · simp [find?]
      · next hne =>
          split
          · simp [find?]
          · simp [find?, hne, ih]

theorem find?_insert_ne {name other : String} (h : name ≠ other) (value : α)
    (entries : Entries α) : (entries.insert name value).find? other = entries.find? other := by
  induction entries with
  | nil => simp [insert, find?, h]
  | cons entry rest ih =>
      rw [insert]
      split
      · next heq => simp [find?, heq, h]
      · split
        · simp [find?, h]
        · simp [find?, ih]

theorem mem_insert {name : String} {value : α} {entry : String × α} {entries : Entries α}
    (h : entry ∈ entries.insert name value) : entry = (name, value) ∨ entry ∈ entries := by
  induction entries with
  | nil => exact Or.inl (by simpa [insert] using h)
  | cons first rest ih =>
      rw [insert] at h
      split at h
      · rcases List.mem_cons.1 h with h | h
        · exact Or.inl h
        · exact Or.inr (List.mem_cons_of_mem _ h)
      · split at h
        · exact (List.mem_cons.1 h)
        · rcases List.mem_cons.1 h with h | h
          · exact Or.inr (h ▸ List.mem_cons_self)
          · exact (ih h).imp_right (List.mem_cons_of_mem _)

/-- The names stand in ascending order, each of them once. -/
def Ascending (entries : Entries α) : Prop :=
  entries.Pairwise fun a b => Precedes a.1 b.1

theorem ascending_insert (name : String) (value : α) {entries : Entries α}
    (h : entries.Ascending) : (entries.insert name value).Ascending := by
  induction entries with
  | nil => exact List.pairwise_singleton _ _
  | cons first rest ih =>
      have hfirst := (List.pairwise_cons.1 h).1
      have hrest := (List.pairwise_cons.1 h).2
      rw [insert]
      split
      · next heq => exact List.pairwise_cons.2 ⟨fun b hb => heq ▸ hfirst b hb, hrest⟩
      · next hne =>
          split
          · next hlt =>
              refine List.pairwise_cons.2 ⟨fun b hb => ?_, h⟩
              rcases List.mem_cons.1 hb with rfl | hb
              · exact hlt
              · exact hlt.trans (hfirst b hb)
          · next hge =>
              refine List.pairwise_cons.2 ⟨fun b hb => ?_, ih hrest⟩
              rcases mem_insert hb with rfl | hb
              · exact precedes_of_not_precedes hge (Ne.symm hne)
              · exact hfirst b hb

end Entries

/-! ## Tables -/

/-- A finite map from names, listed in ascending order. -/
structure NameMap (α : Type) where
  entries : Entries α
  ascending : entries.Ascending

namespace NameMap

variable {α : Type}

def empty : NameMap α := ⟨[], List.Pairwise.nil⟩

instance : Inhabited (NameMap α) := ⟨empty⟩

def find? (map : NameMap α) (name : String) : Option α :=
  map.entries.find? name

/-- Gives a name a meaning, in place of the one it had. -/
def insert (map : NameMap α) (name : String) (value : α) : NameMap α :=
  ⟨map.entries.insert name value, map.entries.ascending_insert name value map.ascending⟩

/-- The table of so many entries, put in one after the other. -/
def ofList (entries : List (String × α)) : NameMap α :=
  entries.foldl (fun map entry => map.insert entry.1 entry.2) empty

def contains (map : NameMap α) (name : String) : Bool :=
  (map.find? name).isSome

def names (map : NameMap α) : List String :=
  map.entries.map (·.1)

def size (map : NameMap α) : Nat :=
  map.entries.length

def isEmpty (map : NameMap α) : Bool :=
  map.entries.isEmpty

theorem find?_insert_self (map : NameMap α) (name : String) (value : α) :
    (map.insert name value).find? name = some value :=
  map.entries.find?_insert_self name value

theorem find?_insert_ne (map : NameMap α) {name other : String} (h : name ≠ other)
    (value : α) : (map.insert name value).find? other = map.find? other :=
  map.entries.find?_insert_ne h value

end NameMap

end Sexpr
