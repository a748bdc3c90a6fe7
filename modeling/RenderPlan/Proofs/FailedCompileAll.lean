import RenderPlan.Proofs.CacheCalls

/-!
# What a failed attempt at all plans leaves

Asking a library for all plans looks every scene up, and then compiles those without a fresh plan in
the order of their names until one does not compile. By then every stale plan has been dropped, and
the new plans of the scenes before that one are cached. So the attempt leaves under each name one of
three things: the fresh entry, wherever its scene stands, an entry of a new plan, or nothing.

## Main definitions

* `PlanCache.LeavesAt`: what is left under the name of a scene when compiling stops

## Main results

* `Library.visits_statistics`: what a survey counts
* `Library.compilePending_stops`: compiling scenes up to the first that does not compile
* `Library.Refines.exists_pending_split`: where the pending scenes are split by the attempt
* `Library.Refines.compileAll_of_split`: the attempt that stops at the split
* `Library.compileAll_fails_at_first`: a library in which some scene does not compile
-/

namespace RenderPlan

/-- Of scenes in the order of their names, those before a scene are those of lesser names. -/
theorem Scene.mem_before_iff {before after : List Scene} {stop scene : Scene}
    (hnames : ((before ++ stop :: after).map Scene.name).Pairwise (· < ·)) :
    scene ∈ before ↔ scene ∈ before ++ stop :: after ∧ scene.name < stop.name := by
  obtain ⟨-, hafter, hacross⟩ := List.pairwise_append.mp (List.pairwise_map.mp hnames)
  constructor
  · intro hscene
    exact ⟨List.mem_append_left _ hscene, hacross _ hscene _ (List.mem_cons_self ..)⟩
  · rintro ⟨hscene, hlt⟩
    rcases List.mem_append.mp hscene with hscene | hscene
    · exact hscene
    · rcases List.mem_cons.mp hscene with rfl | hscene
      · exact absurd hlt (String.lt_irrefl _)
      · exact absurd hlt (String.lt_asymm ((List.pairwise_cons.mp hafter).1 _ hscene))

namespace PlanCache

/-- **The entry left** under the name of a scene when compiling stops at a name: the fresh one, and
if there is none, one of a new plan for a scene of a lesser name and none for any other. -/
inductive LeavesAt (cache : PlanCache) (catalogs : Shared Catalogs) (stop : String)
    (scene : Scene) : Option Entry → Prop
  | kept {e : Entry} (fresh : cache.fresh? catalogs scene = some e) :
      cache.LeavesAt catalogs stop scene (some e)
  | compiled {p : Shared Plan} (stale : cache.fresh? catalogs scene = none)
      (before : scene.name < stop) (plan : catalogs.value.compile scene = .ok p.value)
      (new : cache.nextAllocation ≤ p.allocation) :
      cache.LeavesAt catalogs stop scene (some ⟨catalogs, scene, p⟩)
  | dropped (stale : cache.fresh? catalogs scene = none) (notBefore : ¬scene.name < stop) :
      cache.LeavesAt catalogs stop scene none

end PlanCache

namespace Library

variable {catalogs : Shared Catalogs} {index : TriggerIndex}

/-- **A survey** counts what the tally of its scenes says. -/
theorem visits_statistics (catalogs : Shared Catalogs) :
    ∀ (scenes : List Scene) (s : Survey), (scenes.map Scene.name).Nodup →
      (scenes.foldl (Survey.visit catalogs) s).cache.statistics =
        s.cache.statistics + s.cache.tally catalogs scenes
  | [], _, _ => rfl
  | scene :: rest, s, hnames => by
    obtain ⟨hscene, hrest⟩ := List.nodup_cons.mp hnames
    rw [List.foldl_cons, visits_statistics catalogs rest _ hrest, visit_cache,
      PlanCache.lookup_statistics, (PlanCache.askedFor_lookup ..).tally hscene,
      PlanCache.tally_cons s.cache catalogs scene rest, PlanCache.Statistics.add_assoc]

theorem compilePending_statistics (catalogs : Shared Catalogs) (index : TriggerIndex) :
    ∀ (pending : List Scene) (plans : NameTable (Shared Plan)) (cache : PlanCache),
      (compilePending catalogs index pending plans cache).2.statistics = cache.statistics
  | [], _, _ => rfl
  | scene :: rest, plans, cache => by
    cases hplan : scene.compile catalogs.value index with
    | error e => rw [compilePending_cons_of_error hplan]
    | ok plan =>
      rw [compilePending_cons_of_ok hplan]
      exact compilePending_statistics catalogs index rest _ _

/-- **Scenes that compile** leave an entry of a new plan each. -/
theorem compilePending_of_compile :
    ∀ (pending : List Scene) (plans : NameTable (Shared Plan)) (cache : PlanCache),
      (pending.map Scene.name).Nodup →
      (∀ scene ∈ pending, ∃ plan, scene.compile catalogs.value index = .ok plan) →
      ∃ plans' after, compilePending catalogs index pending plans cache = (.ok plans', after) ∧
        ∀ scene ∈ pending, ∃ p, after.entries.get? scene.name = some ⟨catalogs, scene, p⟩ ∧
          scene.compile catalogs.value index = .ok p.value ∧ cache.nextAllocation ≤ p.allocation
  | [], plans, cache, _, _ => ⟨plans, cache, rfl, fun _ h => nomatch h⟩
  | first :: rest, plans, cache, hnames, hcompile => by
    obtain ⟨hfirst, hrest⟩ := List.nodup_cons.mp hnames
    obtain ⟨plan, hplan⟩ := hcompile first (List.mem_cons_self ..)
    obtain ⟨plans', after, hpending, hentries⟩ := compilePending_of_compile rest
      (plans.insert first.name (cache.store first catalogs plan).1)
      (cache.store first catalogs plan).2 hrest fun t ht => hcompile t (List.mem_cons_of_mem _ ht)
    rw [compilePending_cons_of_ok hplan]
    refine ⟨plans', after, hpending, fun scene hscene => ?_⟩
    rcases List.mem_cons.mp hscene with rfl | hscene
    · -- the scenes after it leave its entry alone
      have hkept := (compilePending_others catalogs index rest
        (plans.insert scene.name (cache.store scene catalogs plan).1)
        (cache.store scene catalogs plan).2 hfirst).1
      rw [hpending, PlanCache.store_entry] at hkept
      exact ⟨_, hkept, hplan, Nat.le_refl _⟩
    · obtain ⟨p, hentry, hp, hnew⟩ := hentries scene hscene
      exact ⟨p, hentry, hp, Nat.le_trans (Nat.le_succ _) hnew⟩

/-- **The first scene that does not compile** ends the compiling: the scenes before it leave entries
of new plans, and nothing else changes. -/
theorem compilePending_stops {before : List Scene} {stop : Scene} {e : CompileError}
    (after : List Scene) (plans : NameTable (Shared Plan)) (cache : PlanCache)
    (hnames : (before.map Scene.name).Nodup)
    (hbefore : ∀ scene ∈ before, ∃ plan, scene.compile catalogs.value index = .ok plan)
    (hstop : stop.compile catalogs.value index = .error e) :
    ∃ left, compilePending catalogs index (before ++ stop :: after) plans cache = (.error e, left) ∧
      (∀ scene ∈ before, ∃ p, left.entries.get? scene.name = some ⟨catalogs, scene, p⟩ ∧
        scene.compile catalogs.value index = .ok p.value ∧
        cache.nextAllocation ≤ p.allocation) ∧
      ∀ name ∉ before.map Scene.name, left.entries.get? name = cache.entries.get? name := by
  obtain ⟨plans', left, hpending, hentries⟩ :=
    compilePending_of_compile before plans cache hnames hbefore
  refine ⟨left, ?_, hentries, fun name hname => ?_⟩
  · rw [compilePending_append _ _ _ hpending, compilePending_cons_of_error hstop]
  · have hothers := (compilePending_others catalogs index before plans cache hname).1
    rwa [hpending] at hothers

section Calls

variable {memory : Memory} {l : Library} {r : Registry} {scene : Scene}

namespace Refines

/-- A scene with a fresh entry compiles. -/
theorem exists_compile_of_fresh (h : l.Refines memory r) {entry : PlanCache.Entry}
    (hfresh : l.cache.fresh? l.catalogs scene = some entry) :
    ∃ p, l.catalogs.value.compile scene = .ok p := by
  have hfound : (l.cache.lookup scene l.catalogs).1 = some entry.plan := by
    rw [(PlanCache.lookup_eq_fresh? ..).1, hfresh, Option.map_some]
  have hserved := PlanCache.lookup_served h.cache hfound
  rw [← h.current] at hserved
  cases hcompile : l.catalogs.value.compile scene with
  | ok p => exact ⟨p, rfl⟩
  | error e => exact absurd hcompile (hserved.compile_ne_error e)

theorem mem_pending_iff (h : l.Refines memory r) :
    scene ∈ l.survey.pending ↔
      l.scenes.get? scene.name = some scene ∧ l.cache.fresh? l.catalogs scene = none := by
  rw [h.survey_pending, List.mem_filter, h.mem_values_iff, h.scenes, Option.isNone_iff_eq_none]

theorem pairwise_pending (h : l.Refines memory r) :
    (l.survey.pending.map Scene.name).Pairwise (· < ·) := by
  have hkeys := l.scenes.pairwise_keys
  rw [← h.map_name_values] at hkeys
  rw [h.survey_pending]
  exact hkeys.sublist (List.filter_sublist.map _)

theorem nodup_pending (h : l.Refines memory r) : (l.survey.pending.map Scene.name).Nodup :=
  h.pairwise_pending.imp String.ne_of_lt

/-- If some scene does not compile, the pending scenes split at the first such. -/
theorem exists_pending_split (h : l.Refines memory r) {name : String} {broken : Scene}
    {e : CompileError} (hbroken : l.scenes.get? name = some broken)
    (he : l.catalogs.value.compile broken = .error e) :
    ∃ before failing after e, l.survey.pending = before ++ failing :: after ∧
      (∀ scene ∈ before, ∃ p, l.catalogs.value.compile scene = .ok p) ∧
      l.catalogs.value.compile failing = .error e := by
  cases hpending : l.survey.pending.mapM l.catalogs.value.compile with
  | error e =>
    obtain ⟨before, failing, after, hsplit, hbefore, hfails⟩ := mapM_eq_error_iff.mp hpending
    exact ⟨before, failing, after, e, hsplit, hbefore, hfails⟩
  | ok plans =>
    -- the broken scene is not fresh, so it is pending
    have hstale : l.cache.fresh? l.catalogs broken = none := by
      cases hfresh : l.cache.fresh? l.catalogs broken with
      | none => rfl
      | some entry =>
        obtain ⟨p, hp⟩ := h.exists_compile_of_fresh hfresh
        cases he.symm.trans hp
    have hname : broken.name = name := h.named name broken hbroken
    have hmem : broken ∈ l.survey.pending := h.mem_pending_iff.mpr ⟨hname ▸ hbroken, hstale⟩
    obtain ⟨p, hp⟩ := exists_mapM_eq_ok_iff.mp ⟨plans, hpending⟩ broken hmem
    cases he.symm.trans hp

section Split

variable {before after : List Scene} {failing : Scene} {e : CompileError}
  (hsplit : l.survey.pending = before ++ failing :: after)
  (hbefore : ∀ scene ∈ before, ∃ p, l.catalogs.value.compile scene = .ok p)
  (hfails : l.catalogs.value.compile failing = .error e)
include hsplit

/-- Those before the split are the scenes of lesser names without a fresh entry. -/
theorem mem_before_split_iff (h : l.Refines memory r) :
    scene ∈ before ↔ (l.scenes.get? scene.name = some scene ∧
      l.cache.fresh? l.catalogs scene = none) ∧ scene.name < failing.name := by
  have hnames := h.pairwise_pending
  rw [hsplit] at hnames
  rw [Scene.mem_before_iff hnames, ← hsplit, h.mem_pending_iff]

/-- What is not compiled before the split is left as the survey has left it. -/
theorem entry_of_notMem_before (h : l.Refines memory r) {left : PlanCache}
    (hothers : ∀ name ∉ before.map Scene.name,
      left.entries.get? name = l.survey.cache.entries.get? name)
    (hscene : l.scenes.get? scene.name = some scene) (hnot : scene ∉ before) :
    left.entries.get? scene.name = l.cache.fresh? l.catalogs scene := by
  have hname : scene.name ∉ before.map Scene.name := by
    intro hname
    obtain ⟨other, hother, hsame⟩ := List.mem_map.mp hname
    have hregistered := ((h.mem_before_split_iff hsplit).mp hother).1.1
    -- the two are registered under one name, so they are the same scene
    rw [hsame, hscene] at hregistered
    cases hregistered
    exact hnot hother
  have hvalue : scene ∈ l.scenes.values := h.mem_values_iff_registered.mpr hscene
  exact (hothers _ hname).trans (h.survey_entry hvalue).1

/-- **Compiling up to the split** leaves one of three things under every name. -/
theorem leavesAt_of_split (h : l.Refines memory r) {left : PlanCache}
    (hcompiled : ∀ scene ∈ before, ∃ p,
      left.entries.get? scene.name = some ⟨l.catalogs, scene, p⟩ ∧
      scene.compile l.catalogs.value l.index = .ok p.value ∧
      l.survey.cache.nextAllocation ≤ p.allocation)
    (hothers : ∀ name ∉ before.map Scene.name,
      left.entries.get? name = l.survey.cache.entries.get? name)
    (hscene : l.scenes.get? scene.name = some scene) :
    l.cache.LeavesAt l.catalogs failing.name scene (left.entries.get? scene.name) := by
  have hbefore : scene ∈ before ↔ _ := h.mem_before_split_iff hsplit
  cases hfresh : l.cache.fresh? l.catalogs scene with
  | some entry =>
    have hnot : scene ∉ before := fun hmem => by cases hfresh.symm.trans (hbefore.mp hmem).1.2
    rw [h.entry_of_notMem_before hsplit hothers hscene hnot, hfresh]
    exact .kept hfresh
  | none =>
    -- the scene is pending, so it stands before the split or is not reached
    by_cases hlt : scene.name < failing.name
    · obtain ⟨p, hentry, hp, hnew⟩ := hcompiled scene (hbefore.mpr ⟨⟨hscene, hfresh⟩, hlt⟩)
      rw [h.index] at hp
      rw [survey, visits_nextAllocation] at hnew
      rw [hentry]
      exact .compiled hfresh hlt hp hnew
    · have hnot : scene ∉ before := fun hmem => hlt (hbefore.mp hmem).2
      rw [h.entry_of_notMem_before hsplit hothers hscene hnot, hfresh]
      exact .dropped hfresh hlt

include hbefore hfails

/-- The scene at the split is the first of all scenes that does not compile. -/
theorem firstViolation_of_split (h : l.Refines memory r) :
    l.scenes.FirstViolation (fun _ scene => ∃ p, l.catalogs.value.compile scene = .ok p)
      failing.name failing := by
  have hmem : failing ∈ l.survey.pending := by
    rw [hsplit]
    exact List.mem_append_right _ (List.mem_cons_self ..)
  refine ⟨(h.mem_pending_iff.mp hmem).1, ?_, fun other hlt scene hscene => ?_⟩
  · rintro ⟨p, hp⟩
    cases hfails.symm.trans hp
  · obtain rfl : scene.name = other := h.named other scene hscene
    -- a scene of a lesser name is fresh, or it stands before the split
    cases hfresh : l.cache.fresh? l.catalogs scene with
    | some entry => exact h.exists_compile_of_fresh hfresh
    | none => exact hbefore scene ((h.mem_before_split_iff hsplit).mpr ⟨⟨hscene, hfresh⟩, hlt⟩)

/-- **The attempt stops** at the split. -/
theorem compileAll_of_split (h : l.Refines memory r) :
    ∃ left, l.compileAll = (.error (.compile e), { l with cache := left }) ∧
      left.statistics = l.survey.cache.statistics ∧
      ∀ name scene, l.scenes.get? name = some scene →
        l.cache.LeavesAt l.catalogs failing.name scene (left.entries.get? name) := by
  have hnames : (before.map Scene.name).Nodup := by
    have hnodup := h.nodup_pending
    rw [hsplit, List.map_append] at hnodup
    exact (List.nodup_append.mp hnodup).1
  rw [Catalogs.compile, ← h.index] at hfails
  obtain ⟨left, hsettled, hcompiled, hothers⟩ := compilePending_stops after
    l.survey.plans l.survey.cache hnames (by rw [h.index]; exact hbefore) hfails
  rw [← hsplit] at hsettled
  refine ⟨left, ?_, ?_, fun name scene hscene => ?_⟩
  · rw [compileAll_eq_settle, Survey.settle, hsettled]
    rfl
  · have hstatistics := compilePending_statistics l.catalogs l.index l.survey.pending
      l.survey.plans l.survey.cache
    rwa [hsettled] at hstatistics
  · obtain rfl : scene.name = name := h.named name scene hscene
    exact h.leavesAt_of_split hsplit hcompiled hothers hscene

end Split

end Refines

end Calls

/-- **What a failed attempt leaves.** If some scene of a library does not compile, asking for all
plans returns the error of the first such scene, in the order of the names, and changes nothing but
the cache. There, every scene keeps its fresh entry, wherever it stands; of the others, those before
the failing scene have entries of new plans, in allocations that no cached plan has had, and those
from it on have none. Of the statistics, a look-up is counted for every scene, a hit for every fresh
entry, a miss for every other scene and an invalidation for every stale entry. -/
theorem compileAll_fails_at_first (memory : Memory) (start : Nat) (calls : List Operation)
    (hbroken : ∃ name broken e, (run memory start calls).scenes.get? name = some broken ∧
      (run memory start calls).catalogs.value.compile broken = .error e) :
    let l := run memory start calls
    ∃ stop failing e after,
      l.scenes.FirstViolation (fun _ scene => ∃ p, l.catalogs.value.compile scene = .ok p)
        stop failing ∧
      l.catalogs.value.compile failing = .error e ∧
      l.compileAll = (.error (.compile e), after) ∧
      (after.catalogs = l.catalogs ∧ after.scenes = l.scenes ∧ after.index = l.index) ∧
      (∀ name scene, l.scenes.get? name = some scene →
        l.cache.LeavesAt l.catalogs stop scene (after.cache.entries.get? name)) ∧
      (∀ name, l.scenes.get? name = none →
        after.cache.entries.get? name = l.cache.entries.get? name) ∧
      l.cache.Allocated ∧
      after.cache.statistics = l.cache.statistics + l.cache.tally l.catalogs l.scenes.values := by
  intro l
  have h : l.Refines memory (Registry.run memory start calls) := run_refines memory start calls
  obtain ⟨name, broken, e₀, hregistered, he₀⟩ := hbroken
  obtain ⟨before, failing, rest, e, hsplit, hbefore, hfails⟩ :=
    h.exists_pending_split hregistered he₀
  obtain ⟨left, hall, hstatistics, hleaves⟩ := h.compileAll_of_split hsplit hbefore hfails
  refine ⟨failing.name, failing, e, _, h.firstViolation_of_split hsplit hbefore hfails, hfails, hall,
    ⟨rfl, rfl, rfl⟩, hleaves, fun other hother => ?_, ?_, ?_⟩
  · have hlooked : ∀ scene ∈ l.lookedUp .compileAll, scene.name ≠ other := by
      intro scene hscene hname
      have hscene := h.registered_of_mem_lookedUp hscene
      rw [hname, hother] at hscene
      cases hscene
    have hcall : Operation.compileAll ≠ .removeScene other := nofun
    have hentry := h.perform_entry_of_not_lookedUp hcall hlooked
    rwa [perform, hall] at hentry
  · exact run_invariant PlanCache.invariant_allocated PlanCache.allocated_empty memory start calls
  · exact hstatistics.trans (visits_statistics l.catalogs l.scenes.values _ h.nodup_names)

/-- Calls that leave scenes before and after one that does not compile: one cached and fresh, two
cached and changed since, and another that does not compile. -/
def brokenCalls : List Operation :=
  [.setScene { name := "changed" }, .setScene { name := "kept" }, .setScene { name := "later" },
    .plan "changed", .plan "kept", .plan "later",
    .setScene { name := "changed", parameters := { clientMidEdgeInterpolation := true } },
    .setScene { name := "later", parameters := { clientMidEdgeInterpolation := true } },
    .setScene { name := "failing", render := ["missing"] },
    .setScene { name := "worse", render := ["missing"] }]

/-- The scene before the failing one is cached anew, and of those after it only the fresh plan is
left. -/
theorem compileAll_brokenCalls :
    let l := run (fun _ => {}) 0 brokenCalls
    (∃ name broken e, l.scenes.get? name = some broken ∧
      l.catalogs.value.compile broken = .error e) ∧
    ∃ after, l.compileAll = (.error (.compile ⟨"failing", "missing", .item⟩), after) ∧
      (∃ e, after.cache.entries.get? "changed" = some e ∧ 3 ≤ e.plan.allocation) ∧
      after.cache.entries.get? "kept" = l.cache.entries.get? "kept" ∧
      after.cache.entries.get? "later" = none ∧
      after.cache.statistics = l.cache.statistics + ⟨5, 1, 4, 2⟩ := by
  intro l
  have hbroken : ∃ name broken e, l.scenes.get? name = some broken ∧
      l.catalogs.value.compile broken = .error e := ⟨"failing", _, _, rfl, rfl⟩
  obtain ⟨stop, failing, e, after, ⟨hstop, hviolates, hlesser⟩, hfails, hall, -, hleaves, -, -,
    hstatistics⟩ := compileAll_fails_at_first (fun _ => {}) 0 brokenCalls hbroken
  have hfailing : l.catalogs.value.compile { name := "failing", render := ["missing"] } =
      .error ⟨"failing", "missing", .item⟩ := rfl
  obtain rfl : stop = "failing" := by
    have hmem : stop ∈ l.scenes.keys := NameTable.mem_keys_iff.mpr ⟨failing, hstop⟩
    have hkeys : l.scenes.keys = ["changed", "failing", "kept", "later", "worse"] := by decide
    -- the scene of a lesser name compiles, and one of a greater name is not the first
    have hnotGreater : ¬"failing" < stop := by
      intro hlt
      obtain ⟨p, hp⟩ := hlesser "failing" hlt _ rfl
      cases hfailing.symm.trans hp
    rw [hkeys] at hmem
    simp only [List.mem_cons, List.not_mem_nil, or_false] at hmem
    rcases hmem with rfl | rfl | rfl | rfl | rfl
    · cases hstop
      exact absurd ⟨_, rfl⟩ hviolates
    · rfl
    all_goals exact absurd (by decide) hnotGreater
  cases hstop
  cases hfailing.symm.trans hfails
  have hnext : l.cache.nextAllocation = 3 := by decide
  refine ⟨hbroken, after, hall, ?_, ?_, ?_, ?_⟩
  · have hchanged := hleaves "changed" _ rfl
    generalize after.cache.entries.get? "changed" = entry at hchanged
    cases hchanged with
    | kept fresh => cases fresh
    | compiled _ _ _ new => exact ⟨_, rfl, hnext ▸ new⟩
    | dropped _ notBefore => exact absurd (by decide) notBefore
  · have hkept := hleaves "kept" _ rfl
    generalize after.cache.entries.get? "kept" = entry at hkept
    cases hkept with
    | kept fresh => exact (PlanCache.fresh?_eq_some_iff.mp fresh).1.symm
    | compiled stale => cases stale
    | dropped stale => cases stale
  · have hlater := hleaves "later" _ rfl
    generalize after.cache.entries.get? "later" = entry at hlater
    cases hlater with
    | kept fresh => cases fresh
    | compiled _ before => exact absurd before (by decide)
    | dropped => rfl
  · rw [hstatistics]
    rfl

end Library

end RenderPlan
