import RenderPlan.Names.Table

/-!
# Name sets

A name set holds finitely many names and lists them in ascending order of their code points. It is
a name table that records nothing but the presence of a name, so equality and order are those of
tables.

## Main definitions

* `NameSet`, with membership, `insert`, `erase`, `ofList`, `toList`.

## Main results

* `NameSet.mem_insert`, `NameSet.mem_erase`, `NameSet.mem_ofList`: the operations, seen through
  membership.
* `NameSet.ext_mem`: sets with the same members are equal.
* `NameSet.pairwise_toList`: a set lists its names in strictly ascending order.
-/

namespace RenderPlan

/-- A finite set of names, listed in ascending order. -/
structure NameSet where
  table : NameTable Unit
deriving DecidableEq

namespace NameSet

/-- The set without names. -/
def empty : NameSet := ⟨.empty⟩

instance : Inhabited NameSet := ⟨empty⟩

instance : EmptyCollection NameSet := ⟨empty⟩

instance : BEq NameSet := ⟨fun s t => decide (s = t)⟩

instance : Membership String NameSet := ⟨fun s name => s.table.contains name = true⟩

instance (name : String) (s : NameSet) : Decidable (name ∈ s) :=
  inferInstanceAs (Decidable (s.table.contains name = true))

/-- The set holds `name`. -/
def contains (s : NameSet) (name : String) : Bool := s.table.contains name

/-- The set with `name` added. -/
def insert (s : NameSet) (name : String) : NameSet := ⟨s.table.insert name ()⟩

/-- The set with `name` removed. -/
def erase (s : NameSet) (name : String) : NameSet := ⟨s.table.erase name⟩

/-- The names of a list. -/
def ofList (names : List String) : NameSet := names.foldl insert empty

/-- The names in ascending order. -/
def toList (s : NameSet) : List String := s.table.keys

/-- The set holds no name. -/
def isEmpty (s : NameSet) : Bool := s.table.isEmpty

@[simp] theorem contains_iff {s : NameSet} {name : String} :
    s.contains name = true ↔ name ∈ s := Iff.rfl

theorem mem_iff_get? {s : NameSet} {name : String} :
    name ∈ s ↔ s.table.get? name = some () := by
  show s.table.contains name = true ↔ _
  rw [NameTable.contains]
  cases s.table.get? name <;> simp

@[simp] theorem not_mem_empty (name : String) : name ∉ empty := by
  simp [mem_iff_get?, empty]

@[simp] theorem mem_insert {s : NameSet} {name other : String} :
    other ∈ s.insert name ↔ other = name ∨ other ∈ s := by
  rw [mem_iff_get?, mem_iff_get?, insert, NameTable.get?_insert]
  by_cases h : other = name <;> simp [h]

@[simp] theorem mem_erase {s : NameSet} {name other : String} :
    other ∈ s.erase name ↔ other ≠ name ∧ other ∈ s := by
  rw [mem_iff_get?, mem_iff_get?, erase, NameTable.get?_erase]
  by_cases h : other = name <;> simp [h]

@[simp] theorem mem_toList {s : NameSet} {name : String} : name ∈ s.toList ↔ name ∈ s :=
  NameTable.contains_iff.symm

theorem mem_foldl_insert {names : List String} {name : String} :
    ∀ {s : NameSet}, name ∈ names.foldl insert s ↔ name ∈ names ∨ name ∈ s := by
  induction names with
  | nil => simp
  | cons head rest ih =>
    intro s
    rw [List.foldl_cons, ih, mem_insert, List.mem_cons]
    constructor
    · rintro (h | h | h)
      · exact .inl (.inr h)
      · exact .inl (.inl h)
      · exact .inr h
    · rintro ((h | h) | h)
      · exact .inr (.inl h)
      · exact .inl h
      · exact .inr (.inr h)

@[simp] theorem mem_ofList {names : List String} {name : String} :
    name ∈ ofList names ↔ name ∈ names := by
  rw [ofList, mem_foldl_insert]
  simp

/-- Sets with the same members are equal. -/
theorem ext_mem {s t : NameSet} (h : ∀ name, name ∈ s ↔ name ∈ t) : s = t := by
  obtain ⟨s⟩ := s
  obtain ⟨t⟩ := t
  congr 1
  refine NameTable.ext_get? fun name => ?_
  have hname := h name
  rw [mem_iff_get?, mem_iff_get?] at hname
  cases hs : s.get? name <;> cases ht : t.get? name <;> simp_all

/-- A set lists its names in strictly ascending order. -/
theorem pairwise_toList (s : NameSet) : s.toList.Pairwise (· < ·) := s.table.pairwise_keys

theorem nodup_toList (s : NameSet) : s.toList.Nodup := s.table.nodup_keys

end NameSet

end RenderPlan
