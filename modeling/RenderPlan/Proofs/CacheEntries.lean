import RenderPlan.Proofs.AllAtOnce

/-!
# What a call leaves in the plan cache

The cache of a library holds at most one plan under each name, and only two kinds of calls bear on
it: removing the scene, and looking it up. A look-up keeps a fresh plan. It drops any other, and a
new plan takes its place if the call comes to compile the scene. Asking for all plans looks every
scene up before it compiles any, so that it does this to every scene also when it fails.

## Main definitions

* `PlanCache.fresh?`: the fresh entry of a scene
* `PlanCache.Renews`: what is left under the name of a scene that has been asked for
* `Library.lookedUp`: the scenes that a call looks up

## Main results

* `Library.Refines.survey_entry`, `Library.Refines.survey_pending`: what a survey makes of the
  scenes
* `PlanCache.getOrCompile_renews`, `Library.Refines.compileAll_renews`: asking for one scene, and
  for all of them
* `Library.Refines.perform_cases`: what one call leaves under a name
-/

namespace RenderPlan

namespace PlanCache

variable {cache : PlanCache} {scene other : Scene} {catalogs : Shared Catalogs} {name : String}

/-- The entry of a scene, if it is fresh. -/
def fresh? (cache : PlanCache) (catalogs : Shared Catalogs) (scene : Scene) : Option Entry :=
  (cache.entries.get? scene.name).filter (·.isFresh scene catalogs)

theorem fresh?_eq_some_iff {e : Entry} :
    cache.fresh? catalogs scene = some e ↔
      cache.entries.get? scene.name = some e ∧ e.isFresh scene catalogs = true :=
  Option.filter_eq_some_iff

/-- No entry is fresh for a scene that holds NaN. -/
theorem fresh?_of_holdsNaN (hnan : scene.holdsNaN = true) : cache.fresh? catalogs scene = none := by
  cases hfresh : cache.fresh? catalogs scene with
  | none => rfl
  | some e =>
    obtain ⟨-, hfresh⟩ := fresh?_eq_some_iff.mp hfresh
    rw [Scene.holdsNaN_eq_false_of_beq ((Bool.and_eq_true _ _).mp hfresh).2] at hnan
    cases hnan

/-- **A look-up** finds the plan of the fresh entry and leaves no entry but this one. -/
theorem lookup_eq_fresh? (cache : PlanCache) (scene : Scene) (catalogs : Shared Catalogs) :
    (cache.lookup scene catalogs).1 = (cache.fresh? catalogs scene).map Entry.plan ∧
      (cache.lookup scene catalogs).2.entries.get? scene.name = cache.fresh? catalogs scene := by
  cases hentry : cache.entries.get? scene.name with
  | none => simp [lookup, fresh?, hentry]
  | some e =>
    cases hfresh : e.isFresh scene catalogs <;>
      simp [lookup, fresh?, hentry, hfresh, Option.filter_some]

theorem AskedFor.fresh? {after : PlanCache} (h : cache.AskedFor name after)
    (hname : scene.name ≠ name) : after.fresh? catalogs scene = cache.fresh? catalogs scene := by
  rw [PlanCache.fresh?, PlanCache.fresh?, h.others _ hname]

theorem store_entry (cache : PlanCache) (scene : Scene) (catalogs : Shared Catalogs)
    (plan : Plan) :
    (cache.store scene catalogs plan).2.entries.get? scene.name =
      some ⟨catalogs, scene, (cache.store scene catalogs plan).1⟩ := by
  simp [store, allocate, insert]

theorem store_entry_of_ne (cache : PlanCache) (catalogs : Shared Catalogs) (plan : Plan)
    (h : name ≠ other.name) :
    (cache.store other catalogs plan).2.entries.get? name = cache.entries.get? name := by
  simp [store, allocate, insert, h]

/-- **The entry left** under the name of a scene that has been asked for: the fresh one, and if
there is none, at most one of a new plan. -/
def Renews (cache : PlanCache) (catalogs : Shared Catalogs) (scene : Scene)
    (after : Option Entry) : Prop :=
  after = cache.fresh? catalogs scene ∨
    cache.fresh? catalogs scene = none ∧
      ∃ p, cache.nextAllocation ≤ p.allocation ∧ after = some ⟨catalogs, scene, p⟩

/-- Whatever entry is left is one of the catalogs that were asked for. -/
theorem Renews.allocation_eq {e : Entry} (h : cache.Renews catalogs scene (some e)) :
    e.catalogs.allocation = catalogs.allocation := by
  rcases h with hfresh | ⟨-, p, -, heq⟩
  · obtain ⟨-, hfresh⟩ := fresh?_eq_some_iff.mp hfresh.symm
    exact eq_of_beq ((Bool.and_eq_true _ _).mp hfresh).1
  · cases heq
    rfl

theorem askedFor_getOrCompile (cache : PlanCache) (scene : Scene) (catalogs : Shared Catalogs)
    (index : TriggerIndex) :
    cache.AskedFor scene.name (cache.getOrCompile scene catalogs index).2 := by
  rcases getOrCompile_cases cache scene catalogs index with
    ⟨p, -, heq⟩ | ⟨e, -, heq⟩ | ⟨plan, -, heq⟩
  · rw [heq]
    exact askedFor_lookup ..
  · rw [heq]
    exact askedFor_lookup ..
  · rw [heq]
    exact (askedFor_lookup ..).store

/-- **One scene asked for**: a plan that is given is the plan of the entry left. -/
theorem getOrCompile_renews (cache : PlanCache) (scene : Scene) (catalogs : Shared Catalogs)
    (index : TriggerIndex) {answer : Except CompileError (Shared Plan)} {after : PlanCache}
    (h : cache.getOrCompile scene catalogs index = (answer, after)) :
    cache.Renews catalogs scene (after.entries.get? scene.name) ∧
      ∀ p, answer = .ok p → (after.entries.get? scene.name).map Entry.plan = some p := by
  obtain ⟨hfound, hentry⟩ := lookup_eq_fresh? cache scene catalogs
  cases hfresh : cache.fresh? catalogs scene with
  | some e =>
    -- a plan that is found is not compiled again
    rw [hfresh] at hfound hentry
    cases h.symm.trans (getOrCompile_of_found hfound)
    refine ⟨.inl (hentry.trans hfresh.symm), fun p hp => ?_⟩
    cases hp
    exact congrArg (Option.map Entry.plan) hentry
  | none =>
    rw [hfresh] at hfound hentry
    rcases getOrCompile_cases cache scene catalogs index with
      ⟨p, hp, -⟩ | ⟨e, -, heq⟩ | ⟨plan, -, heq⟩
    · cases hfound.symm.trans hp
    · cases h.symm.trans heq
      exact ⟨.inl (hentry.trans hfresh.symm), fun _ hp => nomatch hp⟩
    · obtain ⟨rfl, rfl⟩ := Prod.ext_iff.mp (h.symm.trans heq)
      rw [Prod.map_snd, id_eq, store_entry, Prod.map_fst]
      refine ⟨.inr ⟨hfresh, _, ?_, rfl⟩, fun p hp => ?_⟩
      · exact Nat.le_of_eq (lookup_nextAllocation ..).symm
      · cases hp
        rfl

end PlanCache

namespace Library

/-! ## The survey -/

section Survey

variable {catalogs : Shared Catalogs} {scene : Scene} {name : String}

theorem visit_cache (s : Survey) (catalogs : Shared Catalogs) (scene : Scene) :
    (s.visit catalogs scene).cache = (s.cache.lookup scene catalogs).2 := by
  rw [Survey.visit]
  rcases s.cache.lookup scene catalogs with ⟨_ | p, cache⟩ <;> rfl

theorem visit_plans (s : Survey) (catalogs : Shared Catalogs) (scene : Scene) (name : String) :
    (s.visit catalogs scene).plans.get? name =
      if name = scene.name then
        ((s.cache.fresh? catalogs scene).map PlanCache.Entry.plan).or (s.plans.get? name)
      else s.plans.get? name := by
  rw [← (PlanCache.lookup_eq_fresh? s.cache scene catalogs).1, Survey.visit]
  rcases s.cache.lookup scene catalogs with ⟨_ | p, cache⟩
  · simp
  · simp

theorem visit_pending (s : Survey) (catalogs : Shared Catalogs) (scene : Scene) :
    (s.visit catalogs scene).pending =
      s.pending ++ [scene].filter fun t => (s.cache.fresh? catalogs t).isNone := by
  have hfound := (PlanCache.lookup_eq_fresh? s.cache scene catalogs).1
  rw [List.filter_singleton, Survey.visit]
  rcases hlookup : s.cache.lookup scene catalogs with ⟨_ | p, cache⟩
  · rw [hlookup] at hfound
    rw [Option.map_eq_none_iff.mp hfound.symm]
    rfl
  · rw [hlookup] at hfound
    obtain ⟨e, he, -⟩ := Option.map_eq_some_iff.mp hfound.symm
    rw [he]
    exact (List.append_nil _).symm

/-- Scenes of other names are visited without notice. -/
theorem visits_others (catalogs : Shared Catalogs) :
    ∀ (scenes : List Scene) (s : Survey), name ∉ scenes.map Scene.name →
      (scenes.foldl (Survey.visit catalogs) s).cache.entries.get? name =
          s.cache.entries.get? name ∧
        (scenes.foldl (Survey.visit catalogs) s).plans.get? name = s.plans.get? name
  | [], _, _ => ⟨rfl, rfl⟩
  | scene :: rest, s, h => by
    obtain ⟨hname, hrest⟩ := not_or.mp (mt List.mem_cons.mpr h)
    obtain ⟨hentry, hplan⟩ := visits_others catalogs rest (s.visit catalogs scene) hrest
    rw [List.foldl_cons, hentry, hplan, visit_cache, visit_plans, if_neg hname]
    exact ⟨(PlanCache.askedFor_lookup ..).others name hname, rfl⟩

theorem visits_nextAllocation (catalogs : Shared Catalogs) :
    ∀ (scenes : List Scene) (s : Survey),
      (scenes.foldl (Survey.visit catalogs) s).cache.nextAllocation = s.cache.nextAllocation
  | [], _ => rfl
  | scene :: rest, s => by
    rw [List.foldl_cons, visits_nextAllocation catalogs rest, visit_cache,
      PlanCache.lookup_nextAllocation]

/-- **Every scene surveyed** keeps its fresh entry and no other, and is given the plan of it. -/
theorem visits_entry :
    ∀ (scenes : List Scene) (s : Survey), (scenes.map Scene.name).Nodup → scene ∈ scenes →
      (scenes.foldl (Survey.visit catalogs) s).cache.entries.get? scene.name =
          s.cache.fresh? catalogs scene ∧
        (scenes.foldl (Survey.visit catalogs) s).plans.get? scene.name =
          ((s.cache.fresh? catalogs scene).map PlanCache.Entry.plan).or
            (s.plans.get? scene.name)
  | first :: rest, s, hnames, hscene => by
    obtain ⟨hfirst, hrest⟩ := List.nodup_cons.mp hnames
    -- the scene is this one, and no later visit is of its name, or this visit is of another name
    rcases List.mem_cons.mp hscene with rfl | hscene
    · obtain ⟨hentry, hplan⟩ := visits_others catalogs rest (s.visit catalogs scene) hfirst
      rw [List.foldl_cons, hentry, hplan, visit_cache, visit_plans, if_pos rfl]
      exact ⟨(PlanCache.lookup_eq_fresh? ..).2, rfl⟩
    · have hname : scene.name ≠ first.name := fun h => hfirst (h ▸ List.mem_map_of_mem hscene)
      obtain ⟨hentry, hplan⟩ := visits_entry rest (s.visit catalogs first) hrest hscene
      rw [List.foldl_cons, hentry, hplan, visit_cache, visit_plans, if_neg hname,
        (PlanCache.askedFor_lookup ..).fresh? hname]
      exact ⟨rfl, rfl⟩

/-- **The scenes left pending** by a survey are those without a fresh entry, in their order. -/
theorem visits_pending :
    ∀ (scenes : List Scene) (s : Survey), (scenes.map Scene.name).Nodup →
      (scenes.foldl (Survey.visit catalogs) s).pending =
        s.pending ++ scenes.filter fun scene => (s.cache.fresh? catalogs scene).isNone
  | [], s, _ => (List.append_nil _).symm
  | first :: rest, s, hnames => by
    obtain ⟨hfirst, hrest⟩ := List.nodup_cons.mp hnames
    -- dropping the entry of the first scene makes no other one stale
    have hothers : ∀ t ∈ rest, ((s.visit catalogs first).cache.fresh? catalogs t).isNone =
        (s.cache.fresh? catalogs t).isNone := by
      intro t ht
      rw [visit_cache, (PlanCache.askedFor_lookup ..).fresh? fun h =>
        hfirst (h ▸ List.mem_map_of_mem ht)]
    rw [List.foldl_cons, visits_pending rest _ hrest, List.filter_congr hothers, visit_pending,
      List.append_assoc, ← List.filter_append, List.singleton_append]

end Survey

/-! ## The pending scenes -/

section Pending

variable {scene : Scene} {name : String}

/-- Scenes of other names are compiled without notice. -/
theorem compilePending_others (catalogs : Shared Catalogs) (index : TriggerIndex) :
    ∀ (pending : List Scene) (plans : NameTable (Shared Plan)) (cache : PlanCache),
      name ∉ pending.map Scene.name →
      (compilePending catalogs index pending plans cache).2.entries.get? name =
          cache.entries.get? name ∧
        ∀ plans', (compilePending catalogs index pending plans cache).1 = .ok plans' →
          plans'.get? name = plans.get? name
  | [], _, _, _ => ⟨rfl, fun _ h => by cases h; rfl⟩
  | first :: rest, plans, cache, h => by
    obtain ⟨hname, hrest⟩ := not_or.mp (mt List.mem_cons.mpr h)
    cases hplan : first.compile catalogs.value index with
    | error e =>
      rw [compilePending_cons_of_error hplan]
      exact ⟨rfl, fun _ h => nomatch h⟩
    | ok plan =>
      rw [compilePending_cons_of_ok hplan]
      obtain ⟨hentry, hgiven⟩ := compilePending_others catalogs index rest
        (plans.insert first.name (cache.store first catalogs plan).1)
        (cache.store first catalogs plan).2 hrest
      rw [NameTable.get?_insert, if_neg hname] at hgiven
      exact ⟨hentry.trans (PlanCache.store_entry_of_ne cache catalogs plan hname), hgiven⟩

/-- **Every pending scene** has at most the entry of a new plan, and is given the plan of it. -/
theorem compilePending_entry (catalogs : Shared Catalogs) (index : TriggerIndex) :
    ∀ (pending : List Scene) (plans : NameTable (Shared Plan)) (cache : PlanCache),
      (pending.map Scene.name).Nodup → scene ∈ pending →
      cache.entries.get? scene.name = none →
      ∀ {answer after}, compilePending catalogs index pending plans cache = (answer, after) →
      (after.entries.get? scene.name = none ∨ ∃ p, cache.nextAllocation ≤ p.allocation ∧
        after.entries.get? scene.name = some ⟨catalogs, scene, p⟩) ∧
      ∀ plans', answer = .ok plans' →
        plans'.get? scene.name = (after.entries.get? scene.name).map PlanCache.Entry.plan
  | first :: rest, plans, cache, hnames, hscene, hnone, answer, after, h => by
    obtain ⟨hfirst, hrest⟩ := List.nodup_cons.mp hnames
    cases hplan : first.compile catalogs.value index with
    | error e =>
      -- nothing is compiled from here on, so the scene stays without an entry
      cases h.symm.trans (compilePending_cons_of_error hplan)
      exact ⟨.inl hnone, fun _ h => nomatch h⟩
    | ok plan =>
      rw [compilePending_cons_of_ok hplan] at h
      rcases List.mem_cons.mp hscene with rfl | hscene
      · -- the rest of the scenes leave the new entry alone
        obtain ⟨hentry, hgiven⟩ := compilePending_others catalogs index rest
          (plans.insert scene.name (cache.store scene catalogs plan).1)
          (cache.store scene catalogs plan).2 hfirst
        rw [h, PlanCache.store_entry] at hentry
        rw [h, NameTable.get?_insert, if_pos rfl] at hgiven
        rw [hentry]
        exact ⟨.inr ⟨_, Nat.le_refl _, rfl⟩, hgiven⟩
      · have hname : scene.name ≠ first.name := fun h => hfirst (h ▸ List.mem_map_of_mem hscene)
        obtain ⟨hentry, hgiven⟩ := compilePending_entry catalogs index rest _ _ hrest hscene
          ((PlanCache.store_entry_of_ne cache catalogs plan hname).trans hnone) h
        refine ⟨hentry.imp_right fun ⟨p, hnew, hp⟩ => ⟨p, ?_, hp⟩, hgiven⟩
        exact Nat.le_trans (Nat.le_succ _) hnew

end Pending

/-! ## One call -/

section Calls

variable {memory : Memory} {l : Library} {r : Registry} {scene : Scene} {name : String}

theorem compileAll_eq_settle (l : Library) :
    l.compileAll = ((l.survey.settle l.catalogs l.index).1.mapError .compile,
      { l with cache := (l.survey.settle l.catalogs l.index).2 }) :=
  rfl

/-- The scenes that a call looks up, whether it succeeds or not. -/
def lookedUp (l : Library) : Operation → List Scene
  | .plan name => (l.scenes.get? name).toList
  | .compileAll => l.scenes.values
  | .setScene _ | .removeScene _ | .replaceCatalogs _ => []

theorem mem_lookedUp_plan {other : String} :
    scene ∈ l.lookedUp (.plan other) ↔ l.scenes.get? other = some scene :=
  Option.mem_toList

/-- **Removing** a scene leaves no entry under its name. -/
theorem perform_removeScene_entry (l : Library) (memory : Memory) (name : String) :
    (l.perform memory (.removeScene name)).cache.entries.get? name = none := by
  show (l.cache.invalidate name).2.entries.get? name = none
  rw [PlanCache.invalidate]
  split
  · rw [NameTable.get?_erase, if_pos rfl]
  · next hcontains => exact Option.not_isSome_iff_eq_none.mp hcontains

namespace Refines

/-- What a call looks up is registered. -/
theorem registered_of_mem_lookedUp (h : l.Refines memory r) {call : Operation}
    (hscene : scene ∈ l.lookedUp call) : l.scenes.get? scene.name = some scene := by
  cases call with
  | plan other =>
    have hother := mem_lookedUp_plan.mp hscene
    rw [h.named other scene hother]
    exact hother
  | compileAll => exact h.mem_values_iff_registered.mp hscene
  | setScene _ => cases hscene
  | removeScene _ => cases hscene
  | replaceCatalogs _ => cases hscene

/-- **One plan asked for**: a plan that is given is the plan of the entry left. -/
theorem plan_renews (h : l.Refines memory r) (hscene : l.scenes.get? name = some scene) :
    l.cache.Renews l.catalogs scene ((l.plan name).2.cache.entries.get? name) ∧
      ∀ p, (l.plan name).1 = .ok p →
        ((l.plan name).2.cache.entries.get? name).map PlanCache.Entry.plan = some p := by
  obtain rfl : scene.name = name := h.named name scene hscene
  obtain ⟨hrenews, hanswer⟩ := l.cache.getOrCompile_renews scene l.catalogs l.index rfl
  rw [l.plan_eq_getOrCompile hscene]
  exact ⟨hrenews, fun p hp => hanswer p (mapError_eq_ok_iff.mp hp)⟩

theorem nodup_names (h : l.Refines memory r) : (l.scenes.values.map Scene.name).Nodup := by
  rw [h.map_name_values]
  exact l.scenes.nodup_keys

theorem survey_entry (h : l.Refines memory r) (hscene : scene ∈ l.scenes.values) :
    l.survey.cache.entries.get? scene.name = l.cache.fresh? l.catalogs scene ∧
      l.survey.plans.get? scene.name =
        (l.cache.fresh? l.catalogs scene).map PlanCache.Entry.plan := by
  obtain ⟨hentry, hplan⟩ :=
    visits_entry l.scenes.values { cache := l.cache } h.nodup_names hscene
  exact ⟨hentry, hplan.trans Option.or_none⟩

theorem survey_pending (h : l.Refines memory r) :
    l.survey.pending = l.scenes.values.filter fun t => (l.cache.fresh? l.catalogs t).isNone :=
  visits_pending l.scenes.values { cache := l.cache } h.nodup_names

/-- A scene with a fresh entry keeps its name to itself. -/
theorem name_notMem_pending (h : l.Refines memory r) (hscene : scene ∈ l.scenes.values)
    {e : PlanCache.Entry} (hfresh : l.cache.fresh? l.catalogs scene = some e) :
    scene.name ∉ l.survey.pending.map Scene.name := by
  rw [h.survey_pending, List.mem_map]
  rintro ⟨other, hother, hname⟩
  obtain ⟨hother, hnone⟩ := List.mem_filter.mp hother
  -- the two are registered under one name, so they are the same scene
  have hregistered := h.mem_values_iff.mp hother
  rw [hname, h.mem_values_iff.mp hscene] at hregistered
  cases hregistered
  rw [hfresh] at hnone
  cases hnone

/-- **All plans asked for**: the plans that are given are the plans of the entries left. -/
theorem compileAll_renews (h : l.Refines memory r) (hscene : scene ∈ l.scenes.values) :
    l.cache.Renews l.catalogs scene (l.compileAll.2.cache.entries.get? scene.name) ∧
      ∀ plans, l.compileAll.1 = .ok plans → plans.get? scene.name =
        (l.compileAll.2.cache.entries.get? scene.name).map PlanCache.Entry.plan := by
  -- the survey settles what happens to a fresh entry, and the compiling what replaces another
  obtain ⟨hentry, hplan⟩ := h.survey_entry hscene
  rw [compileAll_eq_settle]
  cases hfresh : l.cache.fresh? l.catalogs scene with
  | some e =>
    obtain ⟨hkept, hgiven⟩ := compilePending_others l.catalogs l.index
      l.survey.pending l.survey.plans l.survey.cache (h.name_notMem_pending hscene hfresh)
    have hleft := hkept.trans hentry
    refine ⟨.inl hleft, fun plans hplans => ?_⟩
    rw [hgiven plans (mapError_eq_ok_iff.mp hplans), hplan]
    exact (congrArg (Option.map PlanCache.Entry.plan) hleft).symm
  | none =>
    have hmem : scene ∈ l.survey.pending := by
      rw [h.survey_pending, List.mem_filter, hfresh]
      exact ⟨hscene, rfl⟩
    have hnodup : (l.survey.pending.map Scene.name).Nodup := by
      rw [h.survey_pending]
      exact h.nodup_names.sublist (List.filter_sublist.map _)
    obtain ⟨hleft, hgiven⟩ := compilePending_entry l.catalogs l.index l.survey.pending
      l.survey.plans l.survey.cache hnodup hmem (hentry.trans hfresh) rfl
    refine ⟨?_, fun plans hplans => hgiven plans (mapError_eq_ok_iff.mp hplans)⟩
    rcases hleft with hleft | ⟨p, hnew, hleft⟩
    · exact .inl (hleft.trans hfresh.symm)
    · rw [Library.survey, visits_nextAllocation] at hnew
      exact .inr ⟨hfresh, p, hnew, hleft⟩

/-- **A call** that does not look the scene of a name up, and does not remove it, leaves the entry
under the name as it is. -/
theorem perform_entry_of_not_lookedUp (h : l.Refines memory r) {call : Operation}
    (hremove : call ≠ .removeScene name) (hlooked : ∀ scene ∈ l.lookedUp call, scene.name ≠ name) :
    (l.perform memory call).cache.entries.get? name = l.cache.entries.get? name := by
  cases call with
  | setScene _ => rfl
  | replaceCatalogs _ => rfl
  | removeScene other =>
    -- only the entry of the removed scene is dropped
    have hname : name ≠ other := fun hname => hremove (hname ▸ rfl)
    show (l.cache.invalidate other).2.entries.get? name = _
    rw [PlanCache.invalidate]
    split
    · rw [NameTable.get?_erase, if_neg hname]
    · rfl
  | plan other =>
    rw [perform]
    cases hscene : l.scenes.get? other with
    | none => rw [Library.plan, hscene]
    | some scene =>
      rw [l.plan_eq_getOrCompile hscene]
      exact (PlanCache.askedFor_getOrCompile ..).others name
        (hlooked scene (mem_lookedUp_plan.mpr hscene)).symm
  | compileAll =>
    have hvalues : name ∉ l.scenes.values.map Scene.name := by
      intro hname
      obtain ⟨scene, hscene, rfl⟩ := List.mem_map.mp hname
      exact hlooked scene hscene rfl
    have hpending : name ∉ l.survey.pending.map Scene.name := by
      rw [h.survey_pending]
      exact fun hname => hvalues ((List.filter_sublist.map _).subset hname)
    exact (compilePending_others _ _ _ _ _ hpending).1.trans (visits_others _ _ _ hvalues).1

/-- **Looking a scene up** keeps its fresh entry, or leaves at most one of a new plan. -/
theorem perform_renews (h : l.Refines memory r) {call : Operation}
    (hscene : scene ∈ l.lookedUp call) :
    l.cache.Renews l.catalogs scene
      ((l.perform memory call).cache.entries.get? scene.name) := by
  cases call with
  | plan other =>
    have hregistered := mem_lookedUp_plan.mp hscene
    rw [h.named other scene hregistered]
    exact (h.plan_renews hregistered).1
  | compileAll => exact (h.compileAll_renews hscene).1
  | setScene _ => cases hscene
  | removeScene _ => cases hscene
  | replaceCatalogs _ => cases hscene

/-- **What one call leaves** under a name. -/
theorem perform_cases (h : l.Refines memory r) (call : Operation) (name : String) :
    let after := (l.perform memory call).cache.entries.get? name
    call = .removeScene name ∧ after = none ∨
    call ≠ .removeScene name ∧ (∀ scene ∈ l.lookedUp call, scene.name ≠ name) ∧
      after = l.cache.entries.get? name ∨
    call ≠ .removeScene name ∧ ∃ scene ∈ l.lookedUp call, scene.name = name ∧
      l.cache.Renews l.catalogs scene after := by
  intro after
  by_cases hremove : call = .removeScene name
  · subst hremove
    exact .inl ⟨rfl, perform_removeScene_entry l memory name⟩
  by_cases hlooked : ∃ scene ∈ l.lookedUp call, scene.name = name
  · obtain ⟨scene, hscene, rfl⟩ := hlooked
    exact .inr (.inr ⟨hremove, scene, hscene, rfl, h.perform_renews hscene⟩)
  · have hlooked : ∀ scene ∈ l.lookedUp call, scene.name ≠ name :=
      fun scene hscene hname => hlooked ⟨scene, hscene, hname⟩
    exact .inr (.inl ⟨hremove, hlooked, h.perform_entry_of_not_lookedUp hremove hlooked⟩)

end Refines

end Calls

end Library

end RenderPlan
