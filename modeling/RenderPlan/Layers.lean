import RenderPlan.Names.Table

/-!
# Layered tables

Uniform defaults and GL state are shared between items and scenes with a few names changed per
variant. A layered table is a base table and the writes queued over it, single ones and whole
layers; they are applied in order, so the last write to a name counts.

## Main definitions

* `Layers`, with `on`, `set`, `layer` and `build`.
* `NameTable.overriddenBy`: one table laid over another.

## Main results

* `NameTable.get?_insertAll`: after a list of writes a name has its last written value.
* `NameTable.get?_overriddenBy`: a name has the overriding value if there is one.
* `NameTable.overriddenBy_assoc`: of three tables laid over each other, either two may be composed
  first.
* `Layers.build_set`, `Layers.build_layer`: a queued write is one that is applied at once.
-/

namespace RenderPlan

variable {α : Type}

/-- A base table and the writes queued over it, the earliest first. -/
structure Layers (α : Type) where
  base : NameTable α
  writes : List (String × α)

namespace Layers

/-- Nothing queued over `base`. -/
def on (base : NameTable α) : Layers α := ⟨base, []⟩

/-- Queues one write. -/
def set (l : Layers α) (name : String) (value : α) : Layers α :=
  { l with writes := l.writes ++ [(name, value)] }

/-- Queues every entry of a table. -/
def layer (l : Layers α) (t : NameTable α) : Layers α :=
  { l with writes := l.writes ++ t.entries }

/-- The base with every queued write applied. -/
def build (l : Layers α) : NameTable α := l.base.insertAll l.writes

end Layers

namespace NameTable

/-- The table with the entries of `overrides` laid over it: a name in both takes the overriding
value whole. -/
def overriddenBy (base overrides : NameTable α) : NameTable α :=
  ((Layers.on base).layer overrides).build

/-- The last value that a list of writes gives to `name`. -/
def lastWrite (name : String) : List (String × α) → Option α
  | [] => none
  | write :: rest => (lastWrite name rest).or (if name = write.1 then some write.2 else none)

theorem get?_insertAll (name : String) : ∀ (writes : List (String × α)) (t : NameTable α),
    (t.insertAll writes).get? name = (lastWrite name writes).or (t.get? name)
  | [], t => by simp [insertAll, lastWrite]
  | write :: rest, t => by
    have h := get?_insertAll name rest (t.insert write.1 write.2)
    rw [insertAll] at h ⊢
    rw [List.foldl_cons, h, lastWrite, get?_insert]
    cases lastWrite name rest <;> by_cases hname : name = write.1 <;> simp [hname]

theorem lastWrite_eq_findEntry (name : String) :
    ∀ {entries : List (String × α)}, AscendingNames entries →
      lastWrite name entries = findEntry name entries
  | [], _ => rfl
  | entry :: rest, h => by
    obtain ⟨hhead, hrest⟩ := List.pairwise_cons.mp h
    rw [lastWrite, findEntry_cons, lastWrite_eq_findEntry name hrest]
    by_cases hname : name = entry.1
    · rw [hname, findEntry_eq_none_of_forall_lt hhead, if_pos rfl, Option.none_or]
    · rw [if_neg hname, if_neg hname, Option.or_none]

/-- A list of entries in ascending order is the entries of its table. -/
theorem entries_ofList {entries : List (String × α)} (h : AscendingNames entries) :
    (ofList entries).entries = entries := by
  have htable : ofList entries = ⟨entries, h⟩ := by
    apply ext_get?
    intro name
    rw [ofList, get?_insertAll, get?_empty, Option.or_none]
    -- no name is written twice, so the last write is the only one
    exact lastWrite_eq_findEntry name h
  rw [htable]

@[simp] theorem ofList_entries (t : NameTable α) : ofList t.entries = t :=
  NameTable.ext (entries_ofList t.ascending)

@[simp] theorem get?_overriddenBy (base overrides : NameTable α) (name : String) :
    (base.overriddenBy overrides).get? name = (overrides.get? name).or (base.get? name) := by
  rw [overriddenBy, Layers.build, Layers.layer, Layers.on, List.nil_append, get?_insertAll,
    lastWrite_eq_findEntry name overrides.ascending]
  rfl

@[simp] theorem empty_overriddenBy (t : NameTable α) : empty.overriddenBy t = t := by
  refine ext_get? fun name => ?_
  rw [get?_overriddenBy, get?_empty, Option.or_none]

@[simp] theorem overriddenBy_empty (t : NameTable α) : t.overriddenBy empty = t := by
  refine ext_get? fun name => ?_
  rw [get?_overriddenBy, get?_empty, Option.none_or]

@[simp] theorem overriddenBy_self (t : NameTable α) : t.overriddenBy t = t := by
  refine ext_get? fun name => ?_
  rw [get?_overriddenBy, Option.or_self]

theorem overriddenBy_assoc (a b c : NameTable α) :
    (a.overriddenBy b).overriddenBy c = a.overriddenBy (b.overriddenBy c) := by
  refine ext_get? fun name => ?_
  simp only [get?_overriddenBy, Option.or_assoc]

end NameTable

namespace Layers

@[simp] theorem build_set (l : Layers α) (name : String) (value : α) :
    (l.set name value).build = l.build.insert name value :=
  List.foldl_append

@[simp] theorem build_layer (l : Layers α) (t : NameTable α) :
    (l.layer t).build = l.build.overriddenBy t :=
  List.foldl_append

end Layers

end RenderPlan
