import RenderPlan.Proofs.PlanResources
import RenderPlan.Proofs.TriggerQueries

/-!
# The trigger index as the inverse of the declarations

An item lists the triggers on which it is redrawn, and the index lists for each trigger the items
that it redraws. The index is built by entering the declared pairs one by one, so it includes all of
them and no other, and a trigger stands in it only because an item was entered under it. These two
facts determine the index: every query of it is answered by the declarations alone.

## Main definitions

* `TriggerIndex.DeclaredIn`: an item of a table declares a trigger
* `TriggerIndex.Occupied`: every trigger of an index redraws some item

## Main results

* `TriggerIndex.occupied_build`: no trigger of an index that was built for a table is idle
* `TriggerIndex.Occupied.items?_eq_some_iff`: the items of a trigger, by what the index includes
* `TriggerIndex.eq_build_iff`: there is one index that inverts the declarations of a table
* `TriggerIndex.inverts_declarations`: the queries of an index, by the declarations
-/

namespace RenderPlan

namespace TriggerIndex

variable {index : TriggerIndex} {items : NameTable Item} {trigger name : String}

/-- An item of the table declares the trigger. -/
def DeclaredIn (items : NameTable Item) (trigger name : String) : Prop :=
  ∃ item, items.get? name = some item ∧ trigger ∈ item.triggers

/-- **No trigger is idle**: each of the index redraws some item. -/
def Occupied (index : TriggerIndex) : Prop :=
  ∀ trigger ∈ index.names, ∃ name, index.includes trigger name = true

/-! ## Entering declarations -/

theorem mem_names_enter {other : String} :
    other ∈ (index.enter trigger name).names ↔ other ∈ index.names ∨ trigger = other :=
  NameTable.mem_keys_update

theorem occupied_empty : Occupied ⟨.empty⟩ := fun _ htrigger => nomatch htrigger

/-- **Entering an item** under a trigger leaves no trigger idle. -/
theorem Occupied.enter (h : index.Occupied) (trigger name : String) :
    (index.enter trigger name).Occupied := by
  intro other hother
  rcases mem_names_enter.mp hother with hold | rfl
  · obtain ⟨redrawn, hredrawn⟩ := h other hold
    exact ⟨redrawn, includes_enter_iff.mpr (.inl hredrawn)⟩
  · exact ⟨name, includes_enter_iff.mpr (.inr ⟨rfl, rfl⟩)⟩

theorem Occupied.enterItem (h : index.Occupied) (name : String) (item : Item) :
    (index.enterItem name item).Occupied :=
  List.foldlRecOn _ _ h fun _ hindex trigger _ => hindex.enter trigger name

/-- **No trigger is idle** in an index that was built for a table. -/
theorem occupied_build (items : NameTable Item) : (build items).Occupied :=
  -- the loop over the items keeps what the loop over the triggers of one item keeps
  List.foldlRecOn _ _ occupied_empty fun _ hindex entry _ => hindex.enterItem entry.1 entry.2

/-! ## Queries by what the index includes -/

/-- The triggers that have items are those of the index. -/
theorem exists_items_iff :
    (∃ redrawn, index.items? trigger = some redrawn) ↔ trigger ∈ index.names :=
  NameTable.mem_keys_iff.symm

namespace Occupied

variable (h : index.Occupied)
include h

/-- The triggers of the index are those that redraw some item. -/
theorem mem_names_iff : trigger ∈ index.names ↔ ∃ name, index.includes trigger name = true := by
  refine ⟨h trigger, ?_⟩
  rintro ⟨name, hname⟩
  by_contra hidle
  rw [includes_eq_false_of_not_mem_names hidle name] at hname
  cases hname

/-- **The items of a trigger** are those that it redraws, if there are any. -/
theorem items?_eq_some_iff {redrawn : NameSet} :
    index.items? trigger = some redrawn ↔ (∃ name, name ∈ redrawn) ∧
      ∀ name, name ∈ redrawn ↔ index.includes trigger name = true := by
  have hmem {redrawn : NameSet} (hitems : index.items? trigger = some redrawn) (name : String) :
      name ∈ redrawn ↔ index.includes trigger name = true := by
    rw [includes, hitems, NameSet.contains_iff]
  constructor
  · intro hitems
    obtain ⟨name, hname⟩ := h trigger (exists_items_iff.mp ⟨redrawn, hitems⟩)
    exact ⟨⟨name, (hmem hitems name).mpr hname⟩, hmem hitems⟩
  · rintro ⟨⟨name, hname⟩, hredrawn⟩
    have hnames : trigger ∈ index.names := h.mem_names_iff.mpr ⟨name, (hredrawn name).mp hname⟩
    obtain ⟨listed, hlisted⟩ := exists_items_iff.mpr hnames
    -- a set is determined by its members, so the index has no other set for the trigger
    rw [hlisted, NameSet.ext_mem fun name => (hmem hlisted name).trans (hredrawn name).symm]

end Occupied

theorem lists_triggersOf (index : TriggerIndex) (name : String) :
    Lists (index.triggersOf name) fun trigger => index.includes trigger name = true :=
  ⟨NameTable.pairwise_keys _, fun _ => mem_triggersOf⟩

theorem lists_untriggered (index : TriggerIndex) (items : NameTable Item) :
    Lists (index.untriggered items) fun name => name ∈ items.keys ∧ ¬index.Redraws name :=
  ⟨items.pairwise_keys.filter _, fun _ => by rw [mem_untriggered, NameTable.mem_keys_iff]⟩

/-! ## The inverse of the declarations -/

/-- Indices without idle triggers that include the same are equal. -/
theorem ext_includes {other : TriggerIndex} (hindex : index.Occupied) (hother : other.Occupied)
    (h : ∀ trigger name, index.includes trigger name = true ↔ other.includes trigger name = true) :
    index = other := by
  have hsets : index.sets = other.sets := by
    refine NameTable.ext_get? fun trigger => Option.ext fun redrawn => ?_
    refine hindex.items?_eq_some_iff.trans (.trans ?_ hother.items?_eq_some_iff.symm)
    simp only [h]
  cases index
  cases other
  exact congrArg _ hsets

/-- **One index inverts the declarations** of a table: the one that is built for it is the only one
that has no idle trigger and includes what the items declare. -/
theorem eq_build_iff :
    index = build items ↔ index.Occupied ∧
      ∀ trigger name, index.includes trigger name = true ↔ DeclaredIn items trigger name := by
  constructor
  · rintro rfl
    exact ⟨occupied_build items, fun _ _ => includes_build_iff⟩
  · rintro ⟨hoccupied, hincludes⟩
    exact ext_includes hoccupied (occupied_build items) fun trigger name =>
      (hincludes trigger name).trans includes_build_iff.symm

/-- **The index inverts the declarations** of the items that it was built for. It includes a trigger
and an item when the item is one of the table and declares the trigger. A trigger has items when some
item declares it, and these are then all that do, at least one, in ascending order. The triggers of
the index are all that are declared, each once and in ascending order. The triggers that redraw an
item are those that it declares, in ascending order, and none if the item is not of the table. Of any
table, this one or another, the untriggered items are the names that no trigger of the index redraws,
in ascending order. -/
theorem inverts_declarations (items : NameTable Item) :
    let index := build items
    (∀ trigger name, index.includes trigger name = true ↔ DeclaredIn items trigger name) ∧
    (∀ trigger,
      ((∃ redrawn, index.items? trigger = some redrawn) ↔ ∃ name, DeclaredIn items trigger name) ∧
      ∀ redrawn, index.items? trigger = some redrawn →
        redrawn.toList ≠ [] ∧ Lists redrawn.toList (DeclaredIn items trigger)) ∧
    Lists index.names (fun trigger => ∃ name, DeclaredIn items trigger name) ∧
    (∀ name, Lists (index.triggersOf name) (DeclaredIn items · name) ∧
      (name ∉ items.keys → index.triggersOf name = [])) ∧
    ∀ others : NameTable Item, Lists (index.untriggered others) fun name =>
      name ∈ others.keys ∧ ¬index.Redraws name := by
  intro index
  -- all that is used of the index is what determines it
  obtain ⟨hoccupied, hincludes⟩ := eq_build_iff.mp (rfl : index = build items)
  have hnames (trigger : String) :
      trigger ∈ index.names ↔ ∃ name, DeclaredIn items trigger name := by
    simp only [hoccupied.mem_names_iff, hincludes]
  refine ⟨hincludes, fun trigger => ⟨exists_items_iff.trans (hnames trigger), ?_⟩,
    ⟨NameTable.pairwise_keys _, hnames⟩, fun name => ⟨?_, fun hname => ?_⟩, lists_untriggered index⟩
  · intro redrawn hredrawn
    obtain ⟨⟨name, hname⟩, hmem⟩ := hoccupied.items?_eq_some_iff.mp hredrawn
    exact ⟨List.ne_nil_of_mem (NameSet.mem_toList.mpr hname),
      NameSet.lists fun name => (hmem name).trans (hincludes trigger name)⟩
  · simpa only [hincludes] using lists_triggersOf index name
  · refine List.eq_nil_iff_forall_not_mem.mpr fun trigger htrigger => hname ?_
    obtain ⟨item, hitem, -⟩ := (hincludes trigger name).mp (mem_triggersOf.mp htrigger)
    exact NameTable.mem_keys_iff.mpr ⟨item, hitem⟩

/-- What another table declares does not count: there, too, an item is untriggered when the index
redraws no item of its name. -/
example :
    let item : Item := { program := "dots", primitive := .points }
    let index := build (.ofList [("dots", item), ("edges", item.onTrigger "pick")])
    index.untriggered (.ofList [("edges", item), ("hits", item.onTrigger "pick")]) = ["hits"] := by
  decide

end TriggerIndex

end RenderPlan
