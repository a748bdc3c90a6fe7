import RenderPlan.Item

/-!
# Trigger index

Items declare the triggers that redraw them. The index turns this around and lists for every
declared trigger the items that it redraws. It is built once for a table of items; items without
triggers stand in none of its sets.

## Main definitions

* `TriggerIndex`, `TriggerIndex.build`.
* `TriggerIndex.includes`, `triggersOf`, `names`, `untriggered`: the queries.
-/

namespace RenderPlan

/-- The items redrawn on each trigger. -/
structure TriggerIndex where
  sets : NameTable NameSet
deriving DecidableEq

namespace TriggerIndex

/-- Notes that the trigger redraws the item. -/
def enter (index : TriggerIndex) (trigger item : String) : TriggerIndex :=
  ⟨index.sets.update trigger fun items => (items.getD .empty).insert item⟩

/-- Notes every trigger that an item declares. -/
def enterItem (index : TriggerIndex) (name : String) (item : Item) : TriggerIndex :=
  item.triggers.toList.foldl (fun index trigger => index.enter trigger name) index

/-- The index of a table of items. -/
def build (items : NameTable Item) : TriggerIndex :=
  items.entries.foldl (fun index entry => index.enterItem entry.1 entry.2) ⟨.empty⟩

/-- The items redrawn on a trigger, if any item declares it. -/
def items? (index : TriggerIndex) (trigger : String) : Option NameSet := index.sets.get? trigger

/-- The trigger redraws the item. -/
def includes (index : TriggerIndex) (trigger item : String) : Bool :=
  match index.items? trigger with
  | none => false
  | some items => items.contains item

/-- The triggers, in ascending order. -/
def names (index : TriggerIndex) : List String := index.sets.keys

/-- The triggers that redraw an item, in ascending order. -/
def triggersOf (index : TriggerIndex) (item : String) : List String :=
  (index.sets.filter fun _ items => items.contains item).keys

/-- No trigger redraws the item. -/
def isUntriggered (index : TriggerIndex) (item : String) : Bool :=
  !index.sets.values.any fun items => items.contains item

/-- The items of a table that no trigger redraws, in ascending order. -/
def untriggered (index : TriggerIndex) (items : NameTable Item) : List String :=
  items.keys.filter index.isUntriggered

end TriggerIndex

end RenderPlan
