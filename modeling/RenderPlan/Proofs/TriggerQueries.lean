import RenderPlan.Proofs.Compilation
import RenderPlan.Proofs.TriggerLists

/-!
# The trigger queries of a plan

A render loop asks a plan which draws to make on a trigger, which items a trigger redraws, and which
items no trigger redraws. The plan answers from its own lists, which name every item once, whereas
its draws repeat an item as often as the render list does. All answers are those of the index that
the plan was compiled with, restricted to the render list, repetitions included.

## Main definitions

* `TriggerIndex.Redraws`: some trigger of the index redraws the item

## Main results

* `firstOccurrences_eq_eraseDups`: first occurrences are what is left without later repetitions
* `Plan.drawsOnTrigger_of_compile`, `Plan.untriggeredItems_of_compile`: the answers as parts of the
  draws and of the items in draw order
* `Plan.trigger_queries_agree`: the queries agree with each other and with the index
-/

namespace RenderPlan

/-- **Without later repetitions** a list holds its first occurrences. -/
theorem firstOccurrences_eq_eraseDups (names : List String) :
    firstOccurrences names = names.eraseDups := by
  induction names using List.reverseRecOn with
  | nil => rfl
  | append_singleton names last ih =>
    rw [firstOccurrences_concat, ih, Plan.appendOnce, List.eraseDups_append]
    by_cases hlast : last ∈ names <;> simp [List.removeAll, hlast, List.eraseDups_cons]

namespace TriggerIndex

/-- **Some trigger redraws the item.** -/
def Redraws (index : TriggerIndex) (item : String) : Prop :=
  ∃ trigger, index.includes trigger item = true

variable {index : TriggerIndex} {item : String}

theorem not_redraws_iff : ¬index.Redraws item ↔ index.isUntriggered item = true := by
  simp only [isUntriggered_iff, Redraws, not_exists, Bool.not_eq_true]

instance (index : TriggerIndex) (item : String) : Decidable (index.Redraws item) :=
  decidable_of_iff _ (not_iff_comm.mp not_redraws_iff)

/-- The items of a table that an index redraws were declared with a trigger, if the index was built
for the table. -/
theorem redraws_build_iff {items : NameTable Item} :
    (build items).Redraws item ↔
      ∃ declared, items.get? item = some declared ∧ ∃ trigger, trigger ∈ declared.triggers := by
  simp only [Redraws, includes_build_iff, ← exists_and_left]
  exact exists_comm

/-- Untriggered items of a table are those of its names that no trigger redraws. -/
theorem mem_untriggered {items : NameTable Item} :
    item ∈ index.untriggered items ↔ (∃ declared, items.get? item = some declared) ∧
      ¬index.Redraws item := by
  rw [untriggered, List.mem_filter, NameTable.mem_keys_iff, not_redraws_iff]

/-- In the table that the index was built for, these are the items that declare no trigger. -/
theorem mem_untriggered_build {items : NameTable Item} :
    item ∈ (build items).untriggered items ↔
      ∃ declared, items.get? item = some declared ∧ ∀ trigger, trigger ∉ declared.triggers := by
  rw [mem_untriggered, redraws_build_iff]
  cases items.get? item <;> simp

end TriggerIndex

namespace Plan

variable {s : Scene} {c : Catalogs} {index : TriggerIndex} {p : Plan}

/-- An item that is drawn is listed on the triggers that redraw it. -/
theorem contains_itemsOnTrigger (h : s.compile c index = .ok p) (trigger : String) {name : String}
    (hname : name ∈ s.render) :
    (p.itemsOnTrigger trigger).contains name = index.includes trigger name := by
  rw [Bool.eq_iff_iff, List.contains_iff_mem, itemsOnTrigger_of_compile h, mem_firstOccurrences,
    List.mem_filter, and_iff_right hname]

theorem name_mem_render (h : s.compile c index = .ok p) {d : Draw} (hd : d ∈ p.draws) :
    d.name ∈ s.render :=
  itemOrder_of_compile h ▸ List.mem_map_of_mem hd

/-- **The draws made on a trigger** are all those of the items that the trigger redraws. -/
theorem drawsOnTrigger_of_compile (h : s.compile c index = .ok p) (trigger : String) :
    p.drawsOnTrigger trigger = p.draws.filter fun d => index.includes trigger d.name :=
  List.filter_congr fun _ hd => contains_itemsOnTrigger h trigger (name_mem_render h hd)

/-- **The items listed on a trigger** are the items drawn on it, without later repetitions. -/
theorem itemsOnTrigger_eq_eraseDups (h : s.compile c index = .ok p) (trigger : String) :
    p.itemsOnTrigger trigger = ((p.drawsOnTrigger trigger).map Draw.name).eraseDups := by
  have hnames : (p.drawsOnTrigger trigger).map Draw.name =
      p.itemOrder.filter (index.includes trigger) := by
    rw [drawsOnTrigger_of_compile h, itemOrder, List.filter_map]
    rfl
  rw [hnames, itemOrder_of_compile h, itemsOnTrigger_of_compile h, firstOccurrences_eq_eraseDups]

/-- An item that is drawn stands in some list of the plan when some trigger redraws it. -/
theorem any_triggers_iff (h : s.compile c index = .ok p) {name : String} (hname : name ∈ s.render) :
    (p.triggers.values.any fun items => items.contains name) = true ↔ index.Redraws name := by
  have hlist (trigger : String) (items : List String)
      (hitems : p.triggers.get? trigger = some items) :
      items.contains name = index.includes trigger name := by
    rw [← contains_itemsOnTrigger h trigger hname, itemsOnTrigger, hitems]
    rfl
  rw [List.any_eq_true]
  constructor
  · rintro ⟨items, hmem, hcontains⟩
    obtain ⟨trigger, hitems⟩ := NameTable.mem_values_iff.mp hmem
    exact ⟨trigger, hlist trigger items hitems ▸ hcontains⟩
  · rintro ⟨trigger, hincludes⟩
    -- a trigger that redraws an item is one of the index, and the plan has a list for each of those
    obtain ⟨_, hset, -⟩ := TriggerIndex.includes_eq_true_iff.mp hincludes
    obtain ⟨items, hitems⟩ : ∃ items, p.triggers.get? trigger = some items := by
      rw [triggers_of_compile h, NameTable.get?_mapWithName, hset]
      exact ⟨_, rfl⟩
    exact ⟨items, NameTable.mem_values_iff.mpr ⟨trigger, hitems⟩,
      (hlist trigger items hitems).trans hincludes⟩

/-- **The untriggered items** are all those of the render list that no trigger redraws. -/
theorem untriggeredItems_of_compile (h : s.compile c index = .ok p) :
    p.untriggeredItems = p.itemOrder.filter fun name => ¬index.Redraws name := by
  refine List.filter_congr fun name hname => ?_
  rw [itemOrder_of_compile h] at hname
  rw [Bool.eq_iff_iff, Bool.not_eq_true', decide_eq_true_iff, ← any_triggers_iff h hname,
    Bool.eq_false_iff]

/-- A draw is made on some trigger when some trigger redraws its item. -/
theorem exists_drawsOnTrigger_iff (h : s.compile c index = .ok p) {d : Draw} (hd : d ∈ p.draws) :
    (∃ trigger, d ∈ p.drawsOnTrigger trigger) ↔ index.Redraws d.name := by
  simp only [drawsOnTrigger_of_compile h, List.mem_filter, hd, true_and]
  rfl

theorem mem_untriggeredItems (h : s.compile c index = .ok p) {name : String} :
    name ∈ p.untriggeredItems ↔ name ∈ p.itemOrder ∧ ¬index.Redraws name := by
  rw [untriggeredItems_of_compile h, List.mem_filter, decide_eq_true_iff]

/-- **The trigger queries of a plan agree** with each other and with the index that it was compiled
with. On a trigger the plan makes all draws of the items that the trigger redraws, in draw order and
with every repetition, and the items that it lists for the trigger are those of these draws without
later repetitions. Untriggered are all items in draw order, repetitions included, that no trigger
redraws. So every draw is either of an untriggered item or made on some trigger, and not both. If the
index was built for the items of the catalogs, untriggered are the items that declare no trigger,
which are those that the index itself calls untriggered. -/
theorem trigger_queries_agree (h : s.compile c index = .ok p) :
    (∀ trigger,
      p.drawsOnTrigger trigger = (p.draws.filter fun d => index.includes trigger d.name) ∧
      p.itemsOnTrigger trigger = ((p.drawsOnTrigger trigger).map Draw.name).eraseDups) ∧
    (p.untriggeredItems = p.itemOrder.filter fun name => ¬index.Redraws name) ∧
    (∀ d ∈ p.draws, Xor (d.name ∈ p.untriggeredItems) (∃ trigger, d ∈ p.drawsOnTrigger trigger)) ∧
    (index = .build c.items →
      (p.untriggeredItems = p.itemOrder.filter fun name => name ∈ index.untriggered c.items) ∧
      ∀ name ∈ p.itemOrder, name ∈ p.untriggeredItems ↔
        ∃ item, c.items.get? name = some item ∧ ∀ trigger, trigger ∉ item.triggers) := by
  refine ⟨fun trigger => ⟨drawsOnTrigger_of_compile h trigger,
    itemsOnTrigger_eq_eraseDups h trigger⟩, untriggeredItems_of_compile h, fun d hd => ?_, ?_⟩
  · have hname : d.name ∈ p.itemOrder := List.mem_map_of_mem hd
    rw [mem_untriggeredItems h, exists_drawsOnTrigger_iff h hd, and_iff_right hname]
    exact xor_not_left.mpr Iff.rfl
  · rintro rfl
    -- the names in draw order are declared, so only the triggers matter
    have hdeclared : ∀ name ∈ p.itemOrder, ∃ item, c.items.get? name = some item := by
      intro name hname
      obtain ⟨d, hd, rfl⟩ := List.mem_map.mp hname
      obtain ⟨_, -, hcomposed⟩ := (mem_draws_of_compile h).mp hd
      exact ⟨d.item, hcomposed.name ▸ hcomposed.item⟩
    have hiff : ∀ name ∈ p.itemOrder, name ∈ p.untriggeredItems ↔
        name ∈ (TriggerIndex.build c.items).untriggered c.items := by
      intro name hname
      rw [mem_untriggeredItems h, TriggerIndex.mem_untriggered, and_iff_right hname,
        and_iff_right (hdeclared name hname)]
    refine ⟨?_, fun name hname => (hiff name hname).trans TriggerIndex.mem_untriggered_build⟩
    rw [untriggeredItems_of_compile h]
    refine List.filter_congr fun name hname => decide_eq_decide.mpr ?_
    rw [← hiff name hname, mem_untriggeredItems h, and_iff_right hname]

/-- An index that was not built for all items of the catalogs: the item `dots` has no trigger. -/
def partialPickIndex : TriggerIndex := .build (pickCatalogs.items.erase "dots")

/-- The plan of the scene that draws the item, compiled with that index. -/
def partialPickPlan : Plan :=
  (pickScene.compile pickCatalogs partialPickIndex).toOption.get rfl

/-- Of three draws two are made on a trigger, both of one item, and the item between them is
untriggered. -/
theorem trigger_queries_pick :
    pickScene.compile pickCatalogs partialPickIndex = .ok partialPickPlan ∧
      partialPickPlan.itemOrder = ["hits", "dots", "hits"] ∧
      (partialPickPlan.drawsOnTrigger "render").map Draw.name = ["hits", "hits"] ∧
      partialPickPlan.itemsOnTrigger "render" = ["hits"] ∧
      partialPickPlan.untriggeredItems = ["dots"] ∧
      ∀ d ∈ partialPickPlan.draws, Xor (d.name ∈ partialPickPlan.untriggeredItems)
        (∃ trigger, d ∈ partialPickPlan.drawsOnTrigger trigger) := by
  have hcompile : pickScene.compile pickCatalogs partialPickIndex = .ok partialPickPlan := rfl
  obtain ⟨hqueries, huntriggered, hxor, -⟩ := trigger_queries_agree hcompile
  obtain ⟨hdraws, hitems⟩ := hqueries "render"
  have hnames : (partialPickPlan.drawsOnTrigger "render").map Draw.name = ["hits", "hits"] := by
    rw [hdraws]
    decide
  refine ⟨hcompile, rfl, hnames, ?_, huntriggered.trans (by decide), hxor⟩
  rw [hitems, hnames]
  decide

end Plan

end RenderPlan
