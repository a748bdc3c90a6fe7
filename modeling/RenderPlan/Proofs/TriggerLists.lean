import RenderPlan.Proofs.SelfContainment

/-!
# The triggers of a plan

A plan has a list for every trigger of the index that it was compiled with. The list names the
items of the scene that the trigger redraws, each once, in the order in which they are first drawn.
So the triggers of a plan are the index restricted to the render list, whatever table of items the
index was built for.

## Main definitions

* `firstOccurrences`: the names of a list without repetitions, in the order in which they first occur

## Main results

* `TriggerIndex.includes_build_iff`: an index that was built for a table includes what its items
  declare
* `pairwise_idxOf_firstOccurrences`: no name of a list is listed before one that occurs earlier
* `Plan.triggers_ofItems`: the triggers of a plan, as a table
* `Plan.triggers_restrict_index`: the triggers of a compiled plan, list by list
-/

namespace RenderPlan

/-! ## What an index includes -/

namespace TriggerIndex

theorem includes_eq_true_iff {index : TriggerIndex} {trigger item : String} :
    index.includes trigger item = true ↔ ∃ items, index.sets.get? trigger = some items ∧
      item ∈ items := by
  rw [includes, items?]
  cases index.sets.get? trigger <;> simp

theorem mem_triggersOf {index : TriggerIndex} {trigger item : String} :
    trigger ∈ index.triggersOf item ↔ index.includes trigger item = true := by
  simp only [triggersOf, NameTable.mem_keys_iff, NameTable.get?_filter,
    Option.filter_eq_some_iff, includes_eq_true_iff, NameSet.contains_iff]

theorem nodup_triggersOf (index : TriggerIndex) (item : String) :
    (index.triggersOf item).Nodup :=
  NameTable.nodup_keys _

theorem includes_eq_false_of_not_mem_names {index : TriggerIndex} {trigger : String}
    (h : trigger ∉ index.names) (item : String) : index.includes trigger item = false := by
  rw [Bool.eq_false_iff]
  intro hincludes
  obtain ⟨items, hitems, -⟩ := includes_eq_true_iff.mp hincludes
  exact h (NameTable.mem_keys_iff.mpr ⟨items, hitems⟩)

/-- Untriggered are the items that no trigger redraws. -/
theorem isUntriggered_iff {index : TriggerIndex} {item : String} :
    index.isUntriggered item = true ↔ ∀ trigger, index.includes trigger item = false := by
  have hany : (index.sets.values.any fun items => items.contains item) = true ↔
      ∃ trigger, index.includes trigger item = true := by
    simp only [includes_eq_true_iff, List.any_eq_true, NameTable.mem_values_iff,
      NameSet.contains_iff, ← exists_and_right]
    exact exists_comm
  rw [isUntriggered, Bool.not_eq_true', Bool.eq_false_iff, Ne, hany]
  simp

theorem includes_enter_iff {index : TriggerIndex} {trigger item trigger' item' : String} :
    (index.enter trigger' item').includes trigger item = true ↔
      index.includes trigger item = true ∨ (trigger = trigger' ∧ item = item') := by
  simp only [includes_eq_true_iff, enter, NameTable.get?_update]
  by_cases htrigger : trigger = trigger'
  · subst htrigger
    cases index.sets.get? trigger <;> simp [or_comm]
  · simp [htrigger]

theorem includes_enterItem_iff {index : TriggerIndex} {name trigger item' : String} {item : Item} :
    (index.enterItem name item).includes trigger item' = true ↔
      index.includes trigger item' = true ∨ (item' = name ∧ trigger ∈ item.triggers) := by
  have hstep (index : TriggerIndex) (entered : String) :
      (index.enter entered name).includes trigger item' = true ↔
        index.includes trigger item' = true ∨ (trigger = entered ∧ item' = name) :=
    includes_enter_iff
  refine (foldl_iff (P := (includes · trigger item' = true)) hstep).trans ?_
  refine or_congr_right ⟨?_, fun ⟨hname, htrigger⟩ => ?_⟩
  · rintro ⟨_, htrigger, rfl, hname⟩
    exact ⟨hname, NameSet.mem_toList.mp htrigger⟩
  · exact ⟨trigger, NameSet.mem_toList.mpr htrigger, rfl, hname⟩

/-- **An index includes what the items declare** of the table that it was built for. -/
theorem includes_build_iff {items : NameTable Item} {trigger name : String} :
    (build items).includes trigger name = true ↔
      ∃ item, items.get? name = some item ∧ trigger ∈ item.triggers := by
  have hstep (index : TriggerIndex) (entry : String × Item) :
      (index.enterItem entry.1 entry.2).includes trigger name = true ↔
        index.includes trigger name = true ∨ (name = entry.1 ∧ trigger ∈ entry.2.triggers) :=
    includes_enterItem_iff
  refine (foldl_iff (P := (includes · trigger name = true)) hstep).trans ?_
  constructor
  · rintro (h | ⟨entry, hentry, rfl, htrigger⟩)
    · obtain ⟨_, h, -⟩ := includes_eq_true_iff.mp h
      cases h
    · exact ⟨entry.2, NameTable.get?_eq_some_iff.mpr hentry, htrigger⟩
  · rintro ⟨item, hitem, htrigger⟩
    exact .inr ⟨(name, item), NameTable.get?_eq_some_iff.mp hitem, rfl, htrigger⟩

end TriggerIndex

/-! ## First occurrences -/

/-- The names of a list without repetitions, in the order in which they first occur. -/
def firstOccurrences (names : List String) : List String := names.foldl Plan.appendOnce []

theorem Plan.mem_appendOnce {names : List String} {name other : String} :
    other ∈ appendOnce names name ↔ other ∈ names ∨ other = name := by
  rw [appendOnce]
  split
  · next h =>
    rw [List.contains_iff_mem] at h
    refine ⟨.inl, ?_⟩
    rintro (hother | rfl)
    · exact hother
    · exact h
  · rw [List.mem_append, List.mem_singleton]

theorem firstOccurrences_concat (names : List String) (name : String) :
    firstOccurrences (names ++ [name]) = Plan.appendOnce (firstOccurrences names) name :=
  List.foldl_concat ..

theorem mem_firstOccurrences {names : List String} {name : String} :
    name ∈ firstOccurrences names ↔ name ∈ names := by
  induction names using List.reverseRecOn with
  | nil => rfl
  | append_singleton names last ih =>
    rw [firstOccurrences_concat, Plan.mem_appendOnce, ih, List.mem_append, List.mem_singleton]

/-- **No name is listed before one that occurs earlier**, also when only some names are kept. -/
theorem pairwise_idxOf_firstOccurrences (names : List String) (keep : String → Bool) :
    (firstOccurrences (names.filter keep)).Pairwise
      fun a b => names.idxOf a < names.idxOf b := by
  induction names using List.reverseRecOn with
  | nil => exact .nil
  | append_singleton names last ih =>
    -- names that have occurred before stay where they are
    have hmem {name : String} (h : name ∈ firstOccurrences (names.filter keep)) : name ∈ names :=
      (List.mem_filter.mp (mem_firstOccurrences.mp h)).1
    have hidx {name : String} (h : name ∈ names) :
        (names ++ [last]).idxOf name = names.idxOf name := List.idxOf_append_of_mem h
    have hbefore : (firstOccurrences (names.filter keep)).Pairwise
        fun a b => (names ++ [last]).idxOf a < (names ++ [last]).idxOf b := by
      refine ih.imp_of_mem fun ha hb hlt => ?_
      rwa [hidx (hmem ha), hidx (hmem hb)]
    rw [List.filter_append, List.filter_singleton]
    cases hkeep : keep last with
    | false => simpa using hbefore
    | true =>
      rw [cond_true, firstOccurrences_concat, Plan.appendOnce]
      split
      · exact hbefore
      · next hnew =>
        -- the last name is new, so everything listed occurs before it
        rw [List.contains_iff_mem, mem_firstOccurrences, List.mem_filter] at hnew
        have hlast : last ∉ names := fun h => hnew ⟨h, hkeep⟩
        refine List.pairwise_append.mpr ⟨hbefore, List.pairwise_singleton .., ?_⟩
        intro a ha b hb
        rw [List.mem_singleton.mp hb, hidx (hmem ha), List.idxOf_append_of_notMem hlast]
        exact Nat.lt_add_right _ (List.idxOf_lt_length_of_mem (hmem ha))

/-- First occurrences are listed once. -/
theorem nodup_firstOccurrences (names : List String) : (firstOccurrences names).Nodup := by
  have horder := pairwise_idxOf_firstOccurrences names fun _ => true
  rw [List.filter_true] at horder
  refine horder.imp ?_
  rintro a _ hlt rfl
  exact absurd hlt (Nat.lt_irrefl _)

/-! ## The lists of a plan -/

theorem NameTable.get?_foldl_update {α : Type} {f : Option α → α} {name : String} :
    ∀ {names : List String} {t : NameTable α}, names.Nodup →
      (names.foldl (fun t name => t.update name f) t).get? name =
        if name ∈ names then some (f (t.get? name)) else t.get? name
  | [], t, _ => by simp
  | other :: names, t, h => by
    obtain ⟨hother, hnames⟩ := List.nodup_cons.mp h
    rw [List.foldl_cons, get?_foldl_update hnames, get?_update]
    by_cases hname : name = other
    · subst hname
      simp [hother]
    · simp [hname]

namespace Plan

variable {s : Scene} {c : Catalogs} {index : TriggerIndex} {rs : List ResolvedItem} {p : Plan}

/-- **The triggers of a plan** are those of the index, each with the items that it redraws. -/
theorem triggers_ofItems :
    (ofItems s index rs).triggers = index.sets.mapWithName fun trigger _ =>
      firstOccurrences ((rs.map ResolvedItem.name).filter (index.includes trigger)) := by
  refine NameTable.ext_get? fun trigger => ?_
  rw [NameTable.get?_mapWithName]
  induction rs using List.reverseRecOn with
  | nil => exact NameTable.get?_map ..
  | append_singleton rs r ih =>
    rw [ofItems_concat, triggers_add, NameTable.get?_foldl_update (index.nodup_triggersOf _), ih,
      List.map_append, List.filter_append]
    by_cases hincludes : index.includes trigger r.name = true
    · obtain ⟨items, hitems, -⟩ := TriggerIndex.includes_eq_true_iff.mp hincludes
      rw [if_pos (TriggerIndex.mem_triggersOf.mpr hincludes), hitems]
      simp [hincludes, firstOccurrences_concat]
    · rw [if_neg fun h => hincludes (TriggerIndex.mem_triggersOf.mp h)]
      simp [hincludes]

theorem triggers_of_compile (h : s.compile c index = .ok p) :
    p.triggers = index.sets.mapWithName fun trigger _ =>
      firstOccurrences (s.render.filter (index.includes trigger)) := by
  obtain ⟨rs, hrender, -, rfl⟩ := Scene.compile_eq_ok_iff.mp h
  rw [triggers_ofItems, hrender]

theorem itemsOnTrigger_of_compile (h : s.compile c index = .ok p) (trigger : String) :
    p.itemsOnTrigger trigger = firstOccurrences (s.render.filter (index.includes trigger)) := by
  rw [itemsOnTrigger, triggers_of_compile h, NameTable.get?_mapWithName]
  cases htrigger : index.sets.get? trigger with
  | some items => rfl
  | none =>
    -- a trigger that the index does not have redraws nothing
    have hnames : trigger ∉ index.names := fun hmem => by
      obtain ⟨items, hitems⟩ := NameTable.mem_keys_iff.mp hmem
      rw [htrigger] at hitems
      cases hitems
    have hnone : s.render.filter (index.includes trigger) = [] :=
      List.filter_eq_nil_iff.mpr fun name _ => by
        simp [TriggerIndex.includes_eq_false_of_not_mem_names hnames name]
    rw [hnone]
    rfl

/-- **The triggers of a plan are the index restricted to the render list.** The plan has exactly the
triggers of the index, also those that redraw nothing. For each, it lists the items of the render
list that the trigger redraws, each once, in the order in which they first occur there. A trigger
that the index does not have redraws nothing. What an index includes that was built for the items
of the catalogs is what these declare. -/
theorem triggers_restrict_index (h : s.compile c index = .ok p) :
    p.triggers.keys = index.names ∧
    (∀ trigger, (∀ name, name ∈ p.itemsOnTrigger trigger ↔
        name ∈ s.render ∧ index.includes trigger name = true) ∧
      (p.itemsOnTrigger trigger).Nodup ∧
      (p.itemsOnTrigger trigger).Pairwise fun a b => s.render.idxOf a < s.render.idxOf b) ∧
    (∀ trigger, trigger ∉ index.names → p.itemsOnTrigger trigger = []) ∧
    ∀ trigger name, (TriggerIndex.build c.items).includes trigger name = true ↔
      ∃ item, c.items.get? name = some item ∧ trigger ∈ item.triggers := by
  refine ⟨?_, fun trigger => ?_, fun trigger htrigger => ?_, fun _ _ => ?_⟩
  · rw [triggers_of_compile h, NameTable.keys_mapWithName]
    rfl
  · rw [itemsOnTrigger_of_compile h]
    have horder := pairwise_idxOf_firstOccurrences s.render (index.includes trigger)
    refine ⟨fun name => mem_firstOccurrences.trans List.mem_filter, horder.imp ?_, horder⟩
    rintro a _ hlt rfl
    exact absurd hlt (Nat.lt_irrefl _)
  · rw [itemsOnTrigger, triggers_of_compile h, NameTable.get?_mapWithName]
    cases hitems : index.sets.get? trigger with
    | none => rfl
    | some items => exact absurd (NameTable.mem_keys_iff.mpr ⟨items, hitems⟩) htrigger
  · exact TriggerIndex.includes_build_iff

/-- Compiled with an index that was built for other items, the scene keeps a trigger that redraws
none of its own, and lists the item that it draws twice once. -/
theorem triggers_pick :
    ∃ p, pickScene.compile pickCatalogs (.build otherPickCatalogs.items) = .ok p ∧
      p.triggers.keys = ["pick", "render", "resize"] ∧
      ("hits" ∈ p.itemsOnTrigger "render" ∧ (p.itemsOnTrigger "render").Nodup) ∧
      "edges" ∉ p.itemsOnTrigger "pick" ∧ p.itemsOnTrigger "zoom" = [] := by
  refine ⟨_, rfl, ?_⟩
  obtain ⟨hkeys, hlists, hunknown, -⟩ := triggers_restrict_index
    (show pickScene.compile pickCatalogs (.build otherPickCatalogs.items) = .ok _ from rfl)
  refine ⟨hkeys.trans (by decide), ⟨?_, (hlists "render").2.1⟩, ?_, hunknown "zoom" (by decide)⟩
  · exact ((hlists "render").1 "hits").mpr (by decide)
  · exact fun h => absurd (((hlists "pick").1 "edges").mp h) (by decide)

end Plan

end RenderPlan
