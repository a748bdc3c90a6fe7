import RenderPlan.Proofs.LibraryRefinement

/-!
# All plans at once

Asking a library for all plans looks every scene up before any is compiled, and caches the new plans
after that. Asking for the plans one by one looks up, compiles and caches scene after scene. When
every scene compiles, both give the same plans and leave the same library, down to what the cache
has counted: a look-up does not notice a new plan of another scene, and no two scenes are registered
under one name.

## Main definitions

* `PlanCache.Gives`: the plan that a cache has to give for a scene, the cached or a new one
* `Library.Survey.settle`: what a survey comes to once its pending scenes are compiled
* `Library.planEach`: the plans of some names, asked for one by one
* `PlanCache.Invariant`: what the cache of a library keeps, whatever the library is asked
* `PlanCache.Allocated`: the allocations of the cached plans come before the next one

## Main results

* `PlanCache.lookup_store`: looking a scene up and caching a plan of another one commute
* `Library.settle_visit`, `Library.settle_visits`: once the pending scenes are settled, the survey
  has asked for every scene in turn
* `Library.compileAll_eq_planEach`: all plans at once are the plans one by one
-/

namespace RenderPlan

namespace PlanCache

variable {cache : PlanCache} {scene other : Scene} {catalogs : Shared Catalogs} {plan : Plan}

/-! ## Different scenes -/

@[simp] theorem lookup_nextAllocation (cache : PlanCache) (scene : Scene)
    (catalogs : Shared Catalogs) :
    (cache.lookup scene catalogs).2.nextAllocation = cache.nextAllocation := by
  rw [lookup]
  split
  · rfl
  · split <;> rfl

theorem lookup_eq_none_iff :
    (cache.lookup scene catalogs).1 = none ↔
      ∀ e, cache.entries.get? scene.name = some e → e.isFresh scene catalogs = false := by
  cases hentry : cache.entries.get? scene.name with
  | none => simp [lookup, hentry]
  | some e => cases hfresh : e.isFresh scene catalogs <;> simp [lookup, hentry, hfresh]

/-- **A look-up and a new plan** of scenes with different names do not notice one another. -/
theorem lookup_store (cache : PlanCache) (catalogs : Shared Catalogs) (plan : Plan)
    (h : other.name ≠ scene.name) :
    (cache.store other catalogs plan).2.lookup scene catalogs =
        ((cache.lookup scene catalogs).1,
          ((cache.lookup scene catalogs).2.store other catalogs plan).2) ∧
      ((cache.lookup scene catalogs).2.store other catalogs plan).1 =
        (cache.store other catalogs plan).1 := by
  have hname : scene.name ≠ other.name := h.symm
  cases hentry : cache.entries.get? scene.name with
  | none => simp [lookup, hname, hentry, store, allocate, insert]
  | some e =>
    cases hfresh : e.isFresh scene catalogs with
    | true => simp [lookup, hname, hentry, hfresh, store, allocate, insert]
    | false =>
      -- the stale plan is dropped from beside the new one
      simp [lookup, hname, hentry, hfresh, store, allocate, insert, NameTable.erase_insert _ h]

/-! ## One scene -/

/-- **The plan to give** for a scene: the cached one while it is fresh, and else the plan of the
scene in an allocation that no earlier plan has had. -/
inductive Gives (cache : PlanCache) (catalogs : Shared Catalogs) (scene : Scene) :
    Shared Plan → Prop
  | cached {e : Entry} (entry : cache.entries.get? scene.name = some e)
      (fresh : e.isFresh scene catalogs = true) : cache.Gives catalogs scene e.plan
  | compiled {p : Shared Plan}
      (stale : ∀ e, cache.entries.get? scene.name = some e → e.isFresh scene catalogs = false)
      (plan : catalogs.value.compile scene = .ok p.value)
      (new : cache.nextAllocation ≤ p.allocation) : cache.Gives catalogs scene p

/-- One cache comes of another by asking for the scene of a name: the plans of other scenes are
where they were, and no allocation is taken back. -/
structure AskedFor (name : String) (before after : PlanCache) : Prop where
  others : ∀ other, other ≠ name → after.entries.get? other = before.entries.get? other
  nextAllocation : before.nextAllocation ≤ after.nextAllocation

/-- What is given for a scene does not depend on the scenes asked for before it. -/
theorem AskedFor.gives {name : String} {after : PlanCache} (h : cache.AskedFor name after)
    (hname : scene.name ≠ name) {p : Shared Plan} (hp : after.Gives catalogs scene p) :
    cache.Gives catalogs scene p := by
  cases hp with
  | cached entry fresh => exact .cached (h.others _ hname ▸ entry) fresh
  | compiled stale plan new =>
    exact .compiled (h.others _ hname ▸ stale) plan (Nat.le_trans h.nextAllocation new)

theorem askedFor_lookup (cache : PlanCache) (scene : Scene) (catalogs : Shared Catalogs) :
    cache.AskedFor scene.name (cache.lookup scene catalogs).2 where
  others other hother := by
    rcases lookup_cases cache scene catalogs with ⟨_, -, -, -, hentries⟩ | ⟨-, hentries⟩
    · rw [hentries]
    · rw [hentries, NameTable.get?_erase, if_neg hother]
  nextAllocation := Nat.le_of_eq (lookup_nextAllocation ..).symm

theorem AskedFor.store {after : PlanCache} (h : cache.AskedFor scene.name after) :
    cache.AskedFor scene.name (after.store scene catalogs plan).2 where
  others other hother := by
    rw [← h.others other hother]
    simp [PlanCache.store, allocate, insert, hother]
  nextAllocation := Nat.le_trans h.nextAllocation (Nat.le_succ _)

theorem getOrCompile_of_found {index : TriggerIndex} {p : Shared Plan}
    (h : (cache.lookup scene catalogs).1 = some p) :
    cache.getOrCompile scene catalogs index = (.ok p, (cache.lookup scene catalogs).2) := by
  rw [getOrCompile]
  generalize cache.lookup scene catalogs = found at h
  obtain ⟨answer, cache'⟩ := found
  cases h
  rfl

theorem getOrCompile_of_not_found {index : TriggerIndex}
    (h : (cache.lookup scene catalogs).1 = none)
    (hplan : scene.compile catalogs.value index = .ok plan) :
    cache.getOrCompile scene catalogs index =
      ((cache.lookup scene catalogs).2.store scene catalogs plan).map .ok id := by
  rw [getOrCompile]
  generalize cache.lookup scene catalogs = found at h
  obtain ⟨answer, cache'⟩ := found
  cases h
  rw [hplan]
  rfl

/-- **One scene asked for**, when it compiles. -/
theorem getOrCompile_gives (hplan : catalogs.value.compile scene = .ok plan) :
    ∃ p after,
      cache.getOrCompile scene catalogs (.build catalogs.value.items) = (.ok p, after) ∧
      cache.Gives catalogs scene p ∧ cache.AskedFor scene.name after := by
  rcases hfound : (cache.lookup scene catalogs).1 with _ | p
  · refine ⟨_, _, getOrCompile_of_not_found hfound hplan,
      .compiled (lookup_eq_none_iff.mp hfound) hplan ?_, (askedFor_lookup ..).store⟩
    exact Nat.le_of_eq (lookup_nextAllocation ..).symm
  · refine ⟨p, _, getOrCompile_of_found hfound, ?_, askedFor_lookup ..⟩
    rcases lookup_cases cache scene catalogs with ⟨e, hentry, hfresh, hanswer, -⟩ | ⟨hanswer, -⟩
    · cases hfound.symm.trans hanswer
      exact .cached hentry hfresh
    · cases hfound.symm.trans hanswer

/-! ## Invariants -/

/-- **A cache invariant** stays true when a scene is looked up, when a new plan is cached and when a
plan is dropped. -/
structure Invariant (P : PlanCache → Prop) : Prop where
  lookup : ∀ {c}, P c → ∀ scene catalogs, P (c.lookup scene catalogs).2
  store : ∀ {c}, P c → ∀ scene catalogs plan, P (c.store scene catalogs plan).2
  invalidate : ∀ {c}, P c → ∀ name, P (c.invalidate name).2

variable {P : PlanCache → Prop}

theorem Invariant.getOrCompile (hP : Invariant P) (h : P cache) (scene : Scene)
    (catalogs : Shared Catalogs) (index : TriggerIndex) :
    P (cache.getOrCompile scene catalogs index).2 := by
  have hlookup := hP.lookup h scene catalogs
  rcases getOrCompile_cases cache scene catalogs index with
    ⟨p, -, heq⟩ | ⟨e, -, heq⟩ | ⟨plan, -, heq⟩
  · rw [heq]
    exact hlookup
  · rw [heq]
    exact hlookup
  · rw [heq]
    exact hP.store hlookup scene catalogs plan

/-- The allocations of the cached plans come before the next one. -/
def Allocated (cache : PlanCache) : Prop :=
  ∀ name e, cache.entries.get? name = some e → e.plan.allocation < cache.nextAllocation

theorem allocated_empty : Allocated {} := by
  intro name e h
  rw [NameTable.get?_empty] at h
  cases h

theorem Allocated.erase (h : cache.Allocated) {cache' : PlanCache} {name : String}
    (hentries : cache'.entries = cache.entries.erase name)
    (hnext : cache'.nextAllocation = cache.nextAllocation) : cache'.Allocated := by
  intro other e he
  rw [hentries, NameTable.get?_erase] at he
  split at he
  · cases he
  · exact hnext ▸ h other e he

theorem invariant_allocated : Invariant Allocated where
  lookup {c} h scene catalogs := by
    have hnext := lookup_nextAllocation c scene catalogs
    rcases lookup_cases c scene catalogs with ⟨_, -, -, -, hentries⟩ | ⟨-, hentries⟩
    · rw [Allocated, hentries, hnext]
      exact h
    · exact h.erase hentries hnext
  store {c} h scene catalogs plan := by
    intro name e he
    show e.plan.allocation < c.nextAllocation + 1
    simp only [store, allocate, insert, NameTable.get?_insert] at he
    split at he
    · cases he
      exact Nat.lt_succ_self _
    · exact Nat.lt_succ_of_lt (h name e he)
  invalidate {c} h name := by
    rw [invalidate]
    split
    · exact h.erase rfl rfl
    · exact h

end PlanCache

namespace Library

/-! ## Settling a survey -/

section Settle

variable {catalogs : Shared Catalogs} {index : TriggerIndex} {scene : Scene}

/-- The plans found and those of the pending scenes, with the cache that holds the latter. -/
def Survey.settle (catalogs : Shared Catalogs) (index : TriggerIndex) (s : Survey) :
    Except CompileError (NameTable (Shared Plan)) × PlanCache :=
  compilePending catalogs index s.pending s.plans s.cache

section OnePending

variable {rest : List Scene} {plans : NameTable (Shared Plan)} {cache : PlanCache}

theorem compilePending_cons_of_error {e : CompileError}
    (h : scene.compile catalogs.value index = .error e) :
    compilePending catalogs index (scene :: rest) plans cache = (.error e, cache) := by
  rw [compilePending, h]

theorem compilePending_cons_of_ok {plan : Plan}
    (h : scene.compile catalogs.value index = .ok plan) :
    compilePending catalogs index (scene :: rest) plans cache =
      compilePending catalogs index rest
        (plans.insert scene.name (cache.store scene catalogs plan).1)
        (cache.store scene catalogs plan).2 := by
  rw [compilePending, h]

end OnePending

/-- A scene that is not pending is looked up before or after the pending ones are compiled. -/
theorem compilePending_lookup :
    ∀ (pending : List Scene) (plans : NameTable (Shared Plan)) (cache : PlanCache),
      (∀ other ∈ pending, other.name ≠ scene.name) →
      let settled := compilePending catalogs index pending plans cache
      (settled.2.lookup scene catalogs).1 = (cache.lookup scene catalogs).1 ∧
        compilePending catalogs index pending plans (cache.lookup scene catalogs).2 =
          (settled.1, (settled.2.lookup scene catalogs).2)
  | [], _, _, _ => ⟨rfl, rfl⟩
  | other :: rest, plans, cache, h => by
    cases hplan : other.compile catalogs.value index with
    | error e =>
      rw [compilePending_cons_of_error hplan, compilePending_cons_of_error hplan]
      exact ⟨rfl, rfl⟩
    | ok plan =>
      -- a look-up does not see what is stored under another name, and does not disturb it
      obtain ⟨hlookup, hstore⟩ :=
        cache.lookup_store catalogs plan (h other (List.mem_cons_self ..))
      have ih := compilePending_lookup rest
        (plans.insert other.name (cache.store other catalogs plan).1)
        (cache.store other catalogs plan).2 fun t ht => h t (List.mem_cons_of_mem _ ht)
      rw [hlookup] at ih
      rw [compilePending_cons_of_ok hplan, compilePending_cons_of_ok hplan, hstore]
      exact ih

/-- A plan of a scene that is not pending is listed before or after those of the pending ones. -/
theorem compilePending_insert {name : String} {p : Shared Plan} :
    ∀ (pending : List Scene) (plans : NameTable (Shared Plan)) (cache : PlanCache),
      (∀ other ∈ pending, other.name ≠ name) →
      compilePending catalogs index pending (plans.insert name p) cache =
        (compilePending catalogs index pending plans cache).map (·.map (·.insert name p)) id
  | [], _, _, _ => rfl
  | other :: rest, plans, cache, h => by
    cases hplan : other.compile catalogs.value index with
    | error e =>
      rw [compilePending_cons_of_error hplan, compilePending_cons_of_error hplan]
      rfl
    | ok plan =>
      rw [compilePending_cons_of_ok hplan, compilePending_cons_of_ok hplan,
        NameTable.insert_comm _ (h other (List.mem_cons_self ..)).symm]
      exact compilePending_insert rest _ _ fun t ht => h t (List.mem_cons_of_mem _ ht)

/-- Scenes that become pending are compiled after the others. -/
theorem compilePending_append {later : List Scene} {plans' : NameTable (Shared Plan)}
    {cache' : PlanCache} :
    ∀ (pending : List Scene) (plans : NameTable (Shared Plan)) (cache : PlanCache),
      compilePending catalogs index pending plans cache = (.ok plans', cache') →
      compilePending catalogs index (pending ++ later) plans cache =
        compilePending catalogs index later plans' cache'
  | [], plans, cache, h => by
    cases h
    rfl
  | other :: rest, plans, cache, h => by
    cases hplan : other.compile catalogs.value index with
    | error e =>
      rw [compilePending_cons_of_error hplan] at h
      cases h
    | ok plan =>
      rw [compilePending_cons_of_ok hplan] at h
      rw [List.cons_append, compilePending_cons_of_ok hplan]
      exact compilePending_append rest _ _ h

/-- **One more scene** surveyed is, once all pending scenes are settled, one more scene asked
for. -/
theorem settle_visit {s : Survey} {plans : NameTable (Shared Plan)} {cache : PlanCache}
    {plan : Plan} (hs : s.settle catalogs index = (.ok plans, cache))
    (hnew : ∀ other ∈ s.pending, other.name ≠ scene.name)
    (hplan : scene.compile catalogs.value index = .ok plan) :
    ∃ p after, cache.getOrCompile scene catalogs index = (.ok p, after) ∧
      (s.visit catalogs scene).settle catalogs index =
        (.ok (plans.insert scene.name p), after) := by
  obtain ⟨hanswer, hlookup⟩ := compilePending_lookup s.pending s.plans s.cache hnew
  rw [Survey.settle] at hs
  rw [hs] at hanswer hlookup
  rw [Survey.visit]
  rcases hfound : s.cache.lookup scene catalogs with ⟨_ | p, found⟩
  · -- the scene becomes pending, and its plan is the last to be cached
    rw [hfound] at hanswer hlookup
    refine ⟨_, _, PlanCache.getOrCompile_of_not_found hanswer hplan, ?_⟩
    rw [Survey.settle, compilePending_append _ _ _ hlookup, compilePending_cons_of_ok hplan]
    rfl
  · rw [hfound] at hanswer hlookup
    refine ⟨p, _, PlanCache.getOrCompile_of_found hanswer, ?_⟩
    rw [Survey.settle, compilePending_insert _ _ _ hnew, hlookup]
    rfl

theorem visit_pending_sublist (catalogs : Shared Catalogs) (s : Survey) (scene : Scene) :
    (s.visit catalogs scene).pending.Sublist (s.pending ++ [scene]) := by
  rw [Survey.visit]
  rcases s.cache.lookup scene catalogs with ⟨_ | p, found⟩
  · exact List.Sublist.refl _
  · exact List.sublist_append_left ..

end Settle

/-! ## One by one -/

/-- The plans of some names, asked for one by one. -/
def planEach (l : Library) :
    List String → List (String × Except LibraryError (Shared Plan)) × Library
  | [] => ([], l)
  | name :: rest =>
    let (answer, l) := l.plan name
    let (answers, l) := l.planEach rest
    ((name, answer) :: answers, l)

variable {l : Library}

theorem plan_eq_getOrCompile (l : Library) {name : String} {scene : Scene}
    (h : l.scenes.get? name = some scene) :
    l.plan name = ((l.cache.getOrCompile scene l.catalogs l.index).1.mapError .compile,
      { l with cache := (l.cache.getOrCompile scene l.catalogs l.index).2 }) := by
  rw [Library.plan, h]

/-- Whatever the cache of a library is, asking for a registered scene asks the cache for it. -/
theorem plan_of_getOrCompile {name : String} {scene : Scene} {cache after : PlanCache}
    {p : Shared Plan} (h : l.scenes.get? name = some scene)
    (hgot : cache.getOrCompile scene l.catalogs l.index = (.ok p, after)) :
    { l with cache }.plan name = (.ok p, { l with cache := after }) := by
  have hplan := { l with cache }.plan_eq_getOrCompile h
  rw [hplan]
  show (Except.mapError _ (cache.getOrCompile scene l.catalogs l.index).1,
    { l with cache := (cache.getOrCompile scene l.catalogs l.index).2 }) = _
  rw [hgot]
  rfl

/-- The scene is registered under its own name, and it compiles. -/
structure Compiles (l : Library) (scene : Scene) : Prop where
  registered : l.scenes.get? scene.name = some scene
  plan : ∃ plan, scene.compile l.catalogs.value l.index = .ok plan

theorem Compiles.withCache {scene : Scene} (h : l.Compiles scene) (cache : PlanCache) :
    { l with cache }.Compiles scene where
  registered := h.registered
  plan := h.plan

/-- **All scenes** surveyed are, once the pending ones are settled, all scenes asked for one by
one. -/
theorem settle_visits :
    ∀ (rest : List Scene) (s : Survey) (plans : NameTable (Shared Plan)) (cache : PlanCache),
      s.settle l.catalogs l.index = (.ok plans, cache) →
      ((s.pending ++ rest).map Scene.name).Nodup → (∀ scene ∈ rest, l.Compiles scene) →
      ∃ served after,
        (rest.foldl (Survey.visit l.catalogs) s).settle l.catalogs l.index =
          (.ok (plans.insertAll served), after) ∧
        { l with cache }.planEach (rest.map Scene.name) =
          (served.map fun entry => (entry.1, .ok entry.2), { l with cache := after }) ∧
        served.map Prod.fst = rest.map Scene.name
  | [], s, plans, cache, hs, _, _ => ⟨[], cache, hs, rfl, rfl⟩
  | scene :: rest, s, plans, cache, hs, hnames, hcompiles => by
    obtain ⟨hregistered, plan, hplan⟩ := hcompiles scene (List.mem_cons_self ..)
    -- what is pending was visited before, under other names
    have hnew : ∀ other ∈ s.pending, other.name ≠ scene.name := by
      rw [List.map_append, List.nodup_append] at hnames
      exact fun other hother => hnames.2.2 _ (List.mem_map_of_mem hother) _
        (List.mem_map_of_mem (List.mem_cons_self ..))
    obtain ⟨p, cache₁, hgot, hsettled⟩ := settle_visit hs hnew hplan
    have hnames₁ : (((s.visit l.catalogs scene).pending ++ rest).map Scene.name).Nodup := by
      have hsublist := (visit_pending_sublist l.catalogs s scene).append_right rest
      rw [List.append_assoc] at hsublist
      exact hnames.sublist (hsublist.map _)
    obtain ⟨served, after, hrest, heach, hserved⟩ := settle_visits rest _ _ _ hsettled hnames₁
      fun t ht => hcompiles t (List.mem_cons_of_mem _ ht)
    refine ⟨(scene.name, p) :: served, after, hrest, ?_, congrArg (scene.name :: ·) hserved⟩
    rw [List.map_cons, planEach, plan_of_getOrCompile hregistered hgot]
    show ((scene.name, Except.ok p) :: ({ l with cache := cache₁ }.planEach _).1,
      ({ l with cache := cache₁ }.planEach _).2) = _
    rw [heach]
    rfl

/-- **One by one**, every scene is given the plan that the cache has to give at the start. -/
theorem planEach_gives :
    ∀ (scenes : List Scene) (l : Library), l.index = .build l.catalogs.value.items →
      (scenes.map Scene.name).Nodup → (∀ scene ∈ scenes, l.Compiles scene) →
      ∀ asked ∈ (l.planEach (scenes.map Scene.name)).1, ∃ scene ∈ scenes, ∃ p,
        asked = (scene.name, .ok p) ∧ l.cache.Gives l.catalogs scene p
  | [], _, _, _, _, _, h => (nomatch h)
  | scene :: rest, l, hindex, hnames, hcompiles, asked, hasked => by
    obtain ⟨hregistered, plan, hplan⟩ := hcompiles scene (List.mem_cons_self ..)
    obtain ⟨hname, hrest⟩ := List.nodup_cons.mp hnames
    rw [hindex] at hplan
    obtain ⟨p, after, hgot, hgives, hkept⟩ := l.cache.getOrCompile_gives hplan
    rw [← hindex] at hgot
    have hanswer : l.plan scene.name = (.ok p, { l with cache := after }) :=
      plan_of_getOrCompile hregistered hgot
    rw [List.map_cons, planEach, hanswer] at hasked
    rcases List.mem_cons.mp hasked with rfl | hasked
    · exact ⟨scene, List.mem_cons_self .., p, rfl, hgives⟩
    · -- the scenes after the first are given what they would have been given before it
      obtain ⟨other, hother, q, hq, hgives⟩ := planEach_gives rest { l with cache := after } hindex
        hrest (fun t ht => (hcompiles t (List.mem_cons_of_mem _ ht)).withCache after) asked hasked
      have hne : other.name ≠ scene.name := fun h => hname (h ▸ List.mem_map_of_mem hother)
      exact ⟨other, List.mem_cons_of_mem _ hother, q, hq, hkept.gives hne hgives⟩

/-! ## What the cache of a library keeps -/

section Invariant

open PlanCache (Invariant)

variable {P : PlanCache → Prop} (hP : Invariant P)
include hP

theorem survey_invariant {catalogs : Shared Catalogs} :
    ∀ (scenes : List Scene) (s : Survey), P s.cache →
      P (scenes.foldl (Survey.visit catalogs) s).cache
  | [], _, h => h
  | scene :: rest, s, h => by
    have hlookup := hP.lookup h scene catalogs
    rw [List.foldl_cons, Survey.visit]
    generalize s.cache.lookup scene catalogs = found at hlookup
    obtain ⟨_ | p, cache⟩ := found <;> exact survey_invariant rest _ hlookup

theorem compilePending_invariant {catalogs : Shared Catalogs} {index : TriggerIndex} :
    ∀ (pending : List Scene) (plans : NameTable (Shared Plan)) (cache : PlanCache), P cache →
      P (compilePending catalogs index pending plans cache).2
  | [], _, _, h => h
  | scene :: rest, plans, cache, h => by
    cases hplan : scene.compile catalogs.value index with
    | error e =>
      rw [compilePending_cons_of_error hplan]
      exact h
    | ok plan =>
      rw [compilePending_cons_of_ok hplan]
      exact compilePending_invariant rest _ _ (hP.store h scene catalogs plan)

/-- **One call** keeps an invariant of the cache. -/
theorem perform_invariant (memory : Memory) (h : P l.cache) :
    ∀ call, P (l.perform memory call).cache
  | .setScene _ | .replaceCatalogs _ => h
  | .removeScene name => hP.invalidate h name
  | .plan name => by
    rw [perform]
    cases hscene : l.scenes.get? name with
    | none =>
      rw [Library.plan, hscene]
      exact h
    | some scene =>
      rw [l.plan_eq_getOrCompile hscene]
      exact hP.getOrCompile h scene l.catalogs l.index
  | .compileAll =>
    compilePending_invariant hP _ _ _ (survey_invariant hP l.scenes.values { cache := l.cache } h)

/-- **Any calls** on a new library keep an invariant of the cache that holds at first. -/
theorem run_invariant (hempty : P {}) (memory : Memory) (start : Nat) (calls : List Operation) :
    P (run memory start calls).cache := by
  induction calls using List.reverseRecOn with
  | nil => exact hempty
  | append_singleton calls call ih =>
    rw [run, List.foldl_concat]
    exact perform_invariant hP memory ih call

end Invariant

/-! ## All at once -/

variable {memory : Memory} {r : Registry}

theorem Refines.map_name_values (h : l.Refines memory r) :
    l.scenes.values.map Scene.name = l.scenes.keys := by
  rw [NameTable.values, NameTable.keys, List.map_map]
  apply List.map_congr_left
  rintro ⟨name, scene⟩ hentry
  exact h.named name scene (NameTable.get?_eq_some_iff.mpr hentry)

theorem Refines.compiles (h : l.Refines memory r)
    (hcompile : ∀ name scene, l.scenes.get? name = some scene →
      ∃ p, l.catalogs.value.compile scene = .ok p) :
    ∀ scene ∈ l.scenes.values, l.Compiles scene := by
  intro scene hscene
  have hregistered : l.scenes.get? scene.name = some scene :=
    h.mem_values_iff_registered.mp hscene
  refine ⟨hregistered, ?_⟩
  rw [h.index]
  exact hcompile scene.name scene hregistered

/-- **All plans at once are the plans one by one.** When every scene of a library compiles, asking
for all plans gives one plan under each name, and asking for the plans in the order of the names
gives the same plans and leaves the same library, in which only the cache has changed. A scene whose
cached plan is fresh is given this plan, and any other the plan that compiling it gives, in an
allocation that no cached plan has had. -/
theorem compileAll_eq_planEach (memory : Memory) (start : Nat) (calls : List Operation)
    (hcompile : ∀ name scene, (run memory start calls).scenes.get? name = some scene →
      ∃ p, (run memory start calls).catalogs.value.compile scene = .ok p) :
    let l := run memory start calls
    ∃ plans after, l.compileAll = (.ok plans, after) ∧ plans.keys = l.scenes.keys ∧
      l.planEach l.scenes.keys =
        (plans.entries.map fun entry => (entry.1, .ok entry.2), after) ∧
      (after.catalogs = l.catalogs ∧ after.scenes = l.scenes ∧ after.index = l.index) ∧
      l.cache.Allocated ∧
      ∀ name scene p, l.scenes.get? name = some scene → plans.get? name = some p →
        l.cache.Gives l.catalogs scene p := by
  intro l
  have h : l.Refines memory (Registry.run memory start calls) := run_refines memory start calls
  have hcompiles := h.compiles hcompile
  have hnames : (l.scenes.values.map Scene.name).Nodup := by
    rw [h.map_name_values]
    exact l.scenes.nodup_keys
  obtain ⟨served, after, hsettled, heach, hserved⟩ :=
    settle_visits l.scenes.values { cache := l.cache } .empty l.cache rfl hnames hcompiles
  have hkeys : served.map Prod.fst = l.scenes.keys := hserved.trans h.map_name_values
  -- the plans are served in the order of the names, so the table lists them as they come
  have hentries : (NameTable.ofList served).entries = served :=
    NameTable.entries_ofList (List.pairwise_map.mp (hkeys ▸ l.scenes.pairwise_keys))
  refine ⟨.ofList served, { l with cache := after }, ?_, ?_, ?_, ⟨rfl, rfl, rfl⟩, ?_, ?_⟩
  · show (Except.mapError _ (l.survey.settle l.catalogs l.index).1,
      { l with cache := (l.survey.settle l.catalogs l.index).2 }) = _
    rw [Library.survey, hsettled]
    rfl
  · rw [NameTable.keys, hentries, hkeys]
  · rw [← h.map_name_values, hentries]
    exact heach
  · exact run_invariant PlanCache.invariant_allocated PlanCache.allocated_empty memory start calls
  · intro name scene p hscene hp
    rw [NameTable.get?_eq_some_iff, hentries] at hp
    have hasked : (name, Except.ok p) ∈ (l.planEach (l.scenes.values.map Scene.name)).1 := by
      show _ ∈ ({ l with cache := l.cache }.planEach _).1
      rw [heach]
      exact List.mem_map_of_mem hp
    obtain ⟨other, hother, q, hq, hgives⟩ := planEach_gives _ l h.index hnames hcompiles _ hasked
    cases hq
    cases hscene.symm.trans (hcompiles other hother).registered
    exact hgives

/-- Calls that leave one scene cached and fresh, one cached that is never fresh, and one that is not
cached. -/
def mixedCalls : List Operation :=
  [.setScene { name := "warm" }, .setScene nanArcs, .plan "warm", .plan "arcs",
    .setScene { name := "cold" }]

/-- The fresh plan stays in its allocation, and the two others come after it in the order of the
names. -/
theorem compileAll_mixedCalls :
    let l := run (fun _ => {}) 0 mixedCalls
    (∀ name scene, l.scenes.get? name = some scene →
      ∃ p, l.catalogs.value.compile scene = .ok p) ∧
    ∃ plans after, l.compileAll = (.ok plans, after) ∧
      l.planEach ["arcs", "cold", "warm"] =
        (plans.entries.map fun entry => (entry.1, .ok entry.2), after) ∧
      plans.entries.map (fun entry => (entry.1, entry.2.allocation)) =
        [("arcs", 2), ("cold", 3), ("warm", 0)] := by
  intro l
  have hcompile : ∀ name scene, l.scenes.get? name = some scene →
      ∃ p, l.catalogs.value.compile scene = .ok p := by
    intro name scene hscene
    have hentry := NameTable.get?_eq_some_iff.mp hscene
    have hscenes : l.scenes.entries =
        [("arcs", nanArcs), ("cold", { name := "cold" }), ("warm", { name := "warm" })] := rfl
    rw [hscenes] at hentry
    simp only [List.mem_cons, Prod.mk.injEq, List.not_mem_nil, or_false] at hentry
    rcases hentry with ⟨-, rfl⟩ | ⟨-, rfl⟩ | ⟨-, rfl⟩ <;> exact ⟨_, rfl⟩
  obtain ⟨plans, after, hall, -, heach, -⟩ :=
    compileAll_eq_planEach (fun _ => {}) 0 mixedCalls hcompile
  refine ⟨hcompile, plans, after, hall, heach, ?_⟩
  have hallocations : (l.compileAll.1.toOption.map fun plans =>
      plans.entries.map fun entry => (entry.1, entry.2.allocation)) =
        some [("arcs", 2), ("cold", 3), ("warm", 0)] := by
    decide
  rw [hall] at hallocations
  exact Option.some.inj hallocations

end Library

end RenderPlan
