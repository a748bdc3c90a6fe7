import RenderPlan.Proofs.CachedPlans
import RenderPlan.Proofs.PlanResources
import RenderPlan.Proofs.TriggerQueries
import RenderPlan.Studio.Report

/-!
# The sections of a report

A report has a section for every scene. What a section says is said here of the scene and the
catalogs, without a plan: its items in the order in which they are drawn, the triggers that redraw
some of them and the items that each redraws, and what the scene has to prepare and to fetch. The
section of a plan says just this of the scene that the plan was compiled from.

## Main definitions

* `Scene.Redraws`: a trigger redraws an item of a scene
* `Studio.Section`: what a section lists, with its lines
* `Studio.Section.Describes`: the section lists what the scene draws, redraws and uses

## Main results

* `Studio.planLines_of_compile`: the section of a plan, in lines
* `Studio.Section.describes_ofPlan`: the section of a plan describes its scene
* `Studio.lists_untriggered`: the items that are reported as untriggered
-/

namespace RenderPlan

/-- The scene draws the item, which declares the trigger. -/
def Scene.Redraws (s : Scene) (c : Catalogs) (trigger name : String) : Prop :=
  name ∈ s.render ∧ ∃ item, c.items.get? name = some item ∧ trigger ∈ item.triggers

namespace Studio

variable {s : Scene} {c : Catalogs} {p : Plan} {index : TriggerIndex} {trigger name : String}

/-! ## What a section lists -/

/-- What the section of a scene lists below the items. -/
structure Section where
  triggers : List (String × List String)
  serverBuffers : List String
  serverTextures : List String
  targets : List (String × Plan.Target)
  lookups : List IndexLookup

/-- The lines of a section: a line for each trigger and each target, and of the lines without
entries only that of the buffers. -/
def Section.lines (x : Section) (s : Scene) : List String :=
  ["", "  ── " ++ s.name ++ " ──", "  items     " ++ String.intercalate " → " s.render] ++
  x.triggers.map (fun entry => "  on " ++ padded 16 entry.1 ++ " " ++ commaList entry.2) ++
  ["  server    " ++ commaList x.serverBuffers] ++
  lineUnlessEmpty "  textures  " x.serverTextures ++
  x.targets.map (fun entry => targetLine entry.1 entry.2) ++
  lineUnlessEmpty "  modes     " (x.lookups.map lookupName)

/-- **A section describes a scene.** Its triggers are those that redraw some item of the scene, each
with all of these items in the order in which they are first drawn; its targets are the textures
that the scene draws into, each to be read back if some item of the scene has it read back. -/
structure Section.Describes (x : Section) (c : Catalogs) (s : Scene) : Prop where
  triggers : Lists (x.triggers.map Prod.fst) fun trigger => ∃ name, s.Redraws c trigger name
  redrawn : ∀ entry ∈ x.triggers, (∀ name, name ∈ entry.2 ↔ s.Redraws c entry.1 name) ∧
    entry.2.Pairwise fun a b => s.render.idxOf a < s.render.idxOf b
  serverBuffers : Lists x.serverBuffers fun model => ∃ ref buffer, s.RefersTo c ref ∧
    c.buffer? ref = some buffer ∧ ref.model = model ∧
      (buffer.origin = .serverHost ∨ buffer.origin = .serverDevice)
  serverTextures : Lists x.serverTextures fun name => s.UsesTexture c name ∧
    ∃ texture, c.textures.get? name = some texture ∧ texture.origin = .server
  targets : Lists (x.targets.map Prod.fst) (s.DrawsInto c)
  readBack : ∀ entry ∈ x.targets, c.textures.get? entry.1 = some entry.2.texture ∧
    (entry.2.readBack = true ↔ s.ReadsBack c entry.1)
  lookups : Lists x.lookups fun lookup => ∃ ref buffer, s.RefersTo c ref ∧
    c.buffer? ref = some buffer ∧ buffer.origin = lookup.origin

/-- The lines are those of a section that describes the scene. -/
def IsSection (c : Catalogs) (s : Scene) (lines : List String) : Prop :=
  ∃ x : Section, x.Describes c s ∧ lines = x.lines s

/-! ## The section of a plan -/

/-- What the section of a plan lists below the items. -/
def Section.ofPlan (p : Plan) : Section where
  triggers := (p.triggers.filter fun _ items => !items.isEmpty).entries
  serverBuffers := p.serverBuffers.toList
  serverTextures := p.serverTextures.toList
  targets := p.targets.entries
  lookups := p.indexLookups.toList

/-- The lines of triggers that redraw something are all lines of triggers. -/
theorem filterMap_triggerLine? (triggers : NameTable (List String)) :
    triggers.entries.filterMap (fun entry => triggerLine? entry.1 entry.2) =
      (triggers.filter fun _ items => !items.isEmpty).entries.map fun entry =>
        "  on " ++ padded 16 entry.1 ++ " " ++ commaList entry.2 := by
  rw [NameTable.filter, ← List.filterMap_eq_map, List.filterMap_filter]
  refine List.filterMap_congr fun entry _ => ?_
  rw [triggerLine?]
  cases entry.2.isEmpty <;> rfl

theorem planLines_of_compile (h : s.compile c index = .ok p) :
    planLines p = (Section.ofPlan p).lines s := by
  rw [planLines, (Plan.header_of_compile h).1, Plan.itemOrder_of_compile h,
    filterMap_triggerLine?]
  rfl

/-- A plan lists under a trigger the items that it redraws. -/
theorem mem_itemsOnTrigger (h : c.compile s = .ok p) :
    name ∈ p.itemsOnTrigger trigger ↔ s.Redraws c trigger name := by
  rw [Plan.itemsOnTrigger_of_compile h, mem_firstOccurrences, List.mem_filter,
    TriggerIndex.includes_build_iff, Scene.Redraws]

/-- The triggers of a section are those with items on them. -/
theorem get?_triggers_filter {items : List String} :
    (p.triggers.filter fun _ items => !items.isEmpty).get? trigger = some items ↔
      p.itemsOnTrigger trigger = items ∧ items ≠ [] := by
  rw [NameTable.get?_filter, Option.filter_eq_some_iff, Plan.itemsOnTrigger]
  cases p.triggers.get? trigger with
  | none =>
    -- a trigger that the plan does not know redraws nothing
    constructor
    · rintro ⟨h, -⟩
      cases h
    · rintro ⟨h, hne⟩
      exact absurd h.symm hne
  | some listed => simp

theorem Section.describes_ofPlan (h : c.compile s = .ok p) :
    (Section.ofPlan p).Describes c s where
  triggers := by
    refine NameTable.lists_keys fun trigger => ?_
    simp only [get?_triggers_filter, ← mem_itemsOnTrigger h, exists_eq_left',
      ne_eq, List.eq_nil_iff_forall_not_mem, not_forall, not_not]
  redrawn := by
    rintro ⟨trigger, items⟩ hentry
    obtain ⟨rfl, -⟩ := get?_triggers_filter.mp (NameTable.get?_eq_some_iff.mpr hentry)
    refine ⟨fun name => mem_itemsOnTrigger h, ?_⟩
    rw [Plan.itemsOnTrigger_of_compile h]
    exact pairwise_idxOf_firstOccurrences ..
  serverBuffers := NameSet.lists fun _ => Plan.mem_serverBuffers_of_compile h
  serverTextures := NameSet.lists fun _ => Plan.mem_serverTextures_of_compile h
  targets := Plan.lists_keys_targets h
  readBack := by
    rintro ⟨name, target⟩ hentry
    exact ((Plan.target_of_compile h).mp (NameTable.get?_eq_some_iff.mpr hentry)).2
  lookups := IndexLookups.lists_toList fun _ => Plan.contains_indexLookups_of_compile h

/-- **The section of a plan** is one of the scene that the plan was compiled from. -/
theorem isSection_planLines (h : c.compile s = .ok p) : IsSection c s (planLines p) :=
  ⟨.ofPlan p, Section.describes_ofPlan h, planLines_of_compile h⟩

/-! ## Untriggered items -/

/-- **Untriggered** are the items that declare no trigger. -/
theorem lists_untriggered (c : Catalogs) :
    Lists ((TriggerIndex.build c.items).untriggered c.items) fun name =>
      ∃ item, c.items.get? name = some item ∧ ∀ trigger, trigger ∉ item.triggers where
  ascending := c.items.pairwise_keys.filter _
  mem_iff _ := TriggerIndex.mem_untriggered_build

end Studio

end RenderPlan
