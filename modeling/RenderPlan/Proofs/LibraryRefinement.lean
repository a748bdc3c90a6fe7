import Mathlib.Logic.Function.Basic
import RenderPlan.Library
import RenderPlan.Proofs.CachedPlans

/-!
# A library compiles as if it had no cache

A library answers from its cache when it can. Beside it stands a registry, which knows the current
catalogs and scenes and nothing else, and compiles afresh whenever it is asked. After any calls the
two hold the same scenes, and the library's answers are those of the registry.

Catalogs are handed over by allocation, an old one or a new one, and an allocation holds the same
catalogs for as long as anything refers to it.

## Main definitions

* `Library.Operation`, `Library.run`: the calls of a library, and the library after them
* `Registry`, `Registry.run`: the catalogs and scenes that the same calls leave
* `Library.Refines`: what ties a library to its registry

## Main results

* `Library.perform_refines`, `Library.run_refines`: one call, and any number of them, keep the tie
* `Library.answers_as_compiled_afresh`: what a library answers after any calls
-/

namespace RenderPlan

/-- One call of a library. -/
inductive Library.Operation where
  | setScene (scene : Scene)
  | removeScene (name : String)
  | replaceCatalogs (allocation : Nat)
  | plan (name : String)
  | compileAll

namespace Library

/-- The library after one more call. -/
def perform (memory : Memory) (l : Library) : Operation → Library
  | .setScene scene => (l.setScene scene).2
  | .removeScene name => (l.removeScene name).2
  | .replaceCatalogs allocation => l.replaceCatalogs ⟨allocation, memory allocation⟩
  | .plan name => (l.plan name).2
  | .compileAll => l.compileAll.2

/-- The library after calls on a new one. -/
def run (memory : Memory) (start : Nat) (calls : List Operation) : Library :=
  calls.foldl (perform memory) (ofCatalogs ⟨start, memory start⟩)

end Library

/-- The current catalogs and the scenes registered by name. -/
structure Registry where
  catalogs : Catalogs
  scenes : String → Option Scene

namespace Registry

/-- The registry after one more call: asking for plans changes nothing. -/
def perform (memory : Memory) (r : Registry) : Library.Operation → Registry
  | .setScene scene => { r with scenes := Function.update r.scenes scene.name (some scene) }
  | .removeScene name => { r with scenes := Function.update r.scenes name none }
  | .replaceCatalogs allocation => { r with catalogs := memory allocation }
  | .plan _ | .compileAll => r

/-- The registry after calls on one without scenes. -/
def run (memory : Memory) (start : Nat) (calls : List Library.Operation) : Registry :=
  calls.foldl (perform memory) ⟨memory start, fun _ => none⟩

end Registry

namespace Library

/-! ## All plans at once -/

section AllPlans

variable {memory : Memory} {catalogs : Shared Catalogs} {c : Catalogs}

/-- Every plan serves one of the scenes under its name, and every scene has a plan or is still to
be given one. -/
structure PlansServe (c : Catalogs) (scenes : List Scene) (plans : NameTable (Shared Plan))
    (todo : List Scene) : Prop where
  served : ∀ name p, plans.get? name = some p →
    ∃ scene ∈ scenes, scene.name = name ∧ scene.ServedBy c p.value
  listed : ∀ scene ∈ todo, scene ∈ scenes
  covered : ∀ scene ∈ scenes, scene ∈ todo ∨ ∃ p, plans.get? scene.name = some p

variable {scenes : List Scene}

theorem plansServe_empty : PlansServe c scenes .empty scenes where
  served name p hp := by
    rw [NameTable.get?_empty] at hp
    cases hp
  listed _ hscene := hscene
  covered _ hscene := .inl hscene

/-- **One more plan** that serves its scene leaves one scene less to do. -/
theorem PlansServe.insert {plans : NameTable (Shared Plan)} {before after : List Scene}
    {scene : Scene} (h : PlansServe c scenes plans (before ++ scene :: after)) {p : Shared Plan}
    (hp : scene.ServedBy c p.value) :
    PlansServe c scenes (plans.insert scene.name p) (before ++ after) := by
  refine ⟨fun name q hq => ?_, fun other hother => ?_, fun other hother => ?_⟩
  · rw [NameTable.get?_insert] at hq
    split at hq
    · next hname =>
      cases hq
      exact ⟨scene, h.listed scene (by simp), hname.symm, hp⟩
    · exact h.served name q hq
  · exact h.listed other (List.mem_append.mpr
      ((List.mem_append.mp hother).imp_right (List.mem_cons_of_mem _)))
  · rw [NameTable.get?_insert]
    split
    · exact .inr ⟨p, rfl⟩
    · next hname =>
      refine (h.covered other hother).imp_left fun htodo => ?_
      rcases List.mem_append.mp htodo with htodo | htodo
      · exact List.mem_append_left _ htodo
      · rcases List.mem_cons.mp htodo with rfl | htodo
        · exact absurd rfl hname
        · exact List.mem_append_right _ htodo

variable (hcatalogs : catalogs.value = memory catalogs.allocation)
include hcatalogs

/-- **The survey** finds plans that serve their scenes, and leaves the other scenes pending. -/
theorem survey_serves :
    ∀ (rest : List Scene) (s : Survey), s.cache.Valid memory →
      PlansServe catalogs.value scenes s.plans (s.pending ++ rest) →
      (rest.foldl (Survey.visit catalogs) s).cache.Valid memory ∧
        PlansServe catalogs.value scenes (rest.foldl (Survey.visit catalogs) s).plans
          (rest.foldl (Survey.visit catalogs) s).pending
  | [], s, hcache, h => ⟨hcache, List.append_nil s.pending ▸ h⟩
  | scene :: rest, s, hcache, h => by
    have hvalid : (s.cache.lookup scene catalogs).2.Valid memory := hcache.lookup
    have hserved (p) (hp : (s.cache.lookup scene catalogs).1 = some p) :
        scene.ServedBy catalogs.value p.value := hcatalogs ▸ PlanCache.lookup_served hcache hp
    rw [List.foldl_cons, Survey.visit]
    -- the visit looks at nothing of the look-up but its answer and the cache it leaves
    generalize s.cache.lookup scene catalogs = found at hvalid hserved
    obtain ⟨answer, cache⟩ := found
    cases answer with
    | some p => exact survey_serves rest _ hvalid (h.insert (hserved p rfl))
    | none =>
      -- the scene joins those pending, which changes only where it is listed
      refine survey_serves rest _ hvalid ?_
      rw [List.append_assoc]
      exact h

/-- **Compiling what is pending** gives every scene left a plan, unless one does not compile. -/
theorem compilePending_serves :
    ∀ (pending : List Scene) (plans : NameTable (Shared Plan)) (cache : PlanCache),
      cache.Valid memory → PlansServe catalogs.value scenes plans pending →
      (compilePending catalogs (.build catalogs.value.items) pending plans cache).2.Valid memory ∧
        ∀ plans', (compilePending catalogs (.build catalogs.value.items) pending plans cache).1 =
          .ok plans' → PlansServe catalogs.value scenes plans' []
  | [], plans, cache, hcache, h => ⟨hcache, fun plans' h' => by cases h'; exact h⟩
  | scene :: rest, plans, cache, hcache, h => by
    rw [compilePending]
    cases hplan : scene.compile catalogs.value (.build catalogs.value.items) with
    | error e => exact ⟨hcache, fun _ h' => (nomatch h')⟩
    | ok plan =>
      refine compilePending_serves rest _ _ (hcache.store ?_) ?_
      · rw [← hcatalogs]
        exact hplan
      · exact @PlansServe.insert _ _ plans [] rest scene h _ (Scene.servedBy_of_compile hplan)

end AllPlans

/-! ## Calls -/

variable {memory : Memory} {l : Library} {r : Registry}

/-- **The refinement relation**: the library has the catalogs and scenes of the registry, the
trigger index of these catalogs, and a cache in which nothing is wrong. -/
structure Refines (memory : Memory) (l : Library) (r : Registry) : Prop where
  current : l.catalogs.value = memory l.catalogs.allocation
  catalogs : l.catalogs.value = r.catalogs
  index : l.index = .build l.catalogs.value.items
  scenes : ∀ name, l.scenes.get? name = r.scenes name
  named : ∀ name scene, l.scenes.get? name = some scene → scene.name = name
  cache : l.cache.Valid memory

namespace Refines

theorem ofCatalogs (start : Nat) :
    (Library.ofCatalogs ⟨start, memory start⟩).Refines memory ⟨memory start, fun _ => none⟩ where
  current := rfl
  catalogs := rfl
  index := rfl
  scenes name := NameTable.get?_empty name
  named name scene h := by
    rw [Library.ofCatalogs, NameTable.get?_empty] at h
    cases h
  cache := PlanCache.valid_empty

/-- A call that changes nothing but the cache keeps the tie if it keeps the cache valid. -/
theorem withCache (h : l.Refines memory r) {cache : PlanCache} (hcache : cache.Valid memory) :
    { l with cache }.Refines memory r where
  current := h.current
  catalogs := h.catalogs
  index := h.index
  scenes := h.scenes
  named := h.named
  cache := hcache

theorem setScene (h : l.Refines memory r) (scene : Scene) :
    (l.setScene scene).2.Refines memory (r.perform memory (.setScene scene)) where
  current := h.current
  catalogs := h.catalogs
  index := h.index
  scenes name := by
    show (l.scenes.insert scene.name scene).get? name =
      Function.update r.scenes scene.name (some scene) name
    rw [NameTable.get?_insert, Function.update_apply, h.scenes]
  named name other hother := by
    rw [Library.setScene, NameTable.get?_insert] at hother
    split at hother
    · next hname =>
      cases hother
      exact hname.symm
    · exact h.named name other hother
  cache := h.cache

theorem removeScene (h : l.Refines memory r) (name : String) :
    (l.removeScene name).2.Refines memory (r.perform memory (.removeScene name)) where
  current := h.current
  catalogs := h.catalogs
  index := h.index
  scenes other := by
    show (l.scenes.erase name).get? other = Function.update r.scenes name none other
    rw [NameTable.get?_erase, Function.update_apply, h.scenes]
  named other scene hscene := by
    rw [Library.removeScene, NameTable.get?_erase] at hscene
    split at hscene
    · cases hscene
    · exact h.named other scene hscene
  cache := h.cache.invalidate

theorem replaceCatalogs (h : l.Refines memory r) (allocation : Nat) :
    (l.replaceCatalogs ⟨allocation, memory allocation⟩).Refines memory
      (r.perform memory (.replaceCatalogs allocation)) where
  current := rfl
  catalogs := rfl
  index := rfl
  scenes := h.scenes
  named := h.named
  -- entries of other allocations stay, and stay valid: they were never about the current catalogs
  cache := h.cache

theorem plan (h : l.Refines memory r) (name : String) : (l.plan name).2.Refines memory r := by
  rw [Library.plan]
  cases l.scenes.get? name with
  | none => exact h
  | some scene =>
    refine h.withCache ?_
    rw [h.index]
    exact h.cache.getOrCompile h.current

/-- **All plans** of a library serve its scenes. -/
theorem compileAll_serves (h : l.Refines memory r) :
    l.compileAll.2.Refines memory r ∧ ∀ plans, l.compileAll.1 = .ok plans →
      PlansServe l.catalogs.value l.scenes.values plans [] := by
  obtain ⟨hcache, hserves⟩ := survey_serves h.current l.scenes.values { cache := l.cache } h.cache
    plansServe_empty
  obtain ⟨hcache, hserves⟩ := compilePending_serves h.current _ _ _ hcache hserves
  rw [← h.index] at hcache hserves
  refine ⟨h.withCache hcache, fun plans hplans => hserves plans ?_⟩
  exact mapError_eq_ok_iff.mp hplans

end Refines

/-- **One call** keeps the tie to the registry. -/
theorem perform_refines (h : l.Refines memory r) :
    ∀ call, (l.perform memory call).Refines memory (r.perform memory call)
  | .setScene scene => h.setScene scene
  | .removeScene name => h.removeScene name
  | .replaceCatalogs allocation => h.replaceCatalogs allocation
  | .plan name => h.plan name
  | .compileAll => h.compileAll_serves.1

/-- **Any calls** on a new library keep the tie to the registry. -/
theorem run_refines (memory : Memory) (start : Nat) (calls : List Operation) :
    (run memory start calls).Refines memory (Registry.run memory start calls) := by
  -- the latest call comes last, so the induction is from the end of the list
  induction calls using List.reverseRecOn with
  | nil => exact .ofCatalogs start
  | append_singleton calls call ih =>
    rw [run, Registry.run, List.foldl_concat, List.foldl_concat]
    exact perform_refines ih call

/-! ## Answers -/

namespace Refines

theorem plan_eq_unknownScene_iff (h : l.Refines memory r) {name : String} :
    (l.plan name).1 = .error (.unknownScene name) ↔ r.scenes name = none := by
  rw [Library.plan, ← h.scenes]
  cases l.scenes.get? name with
  | none => simp
  | some scene => simp [mapError_eq_error_iff]

theorem plan_of_registered (h : l.Refines memory r) {name : String} {scene : Scene}
    (hscene : r.scenes name = some scene) :
    (l.plan name).1 = (l.cache.getOrCompile scene l.catalogs
      (.build l.catalogs.value.items)).1.mapError .compile := by
  rw [← h.scenes] at hscene
  rw [Library.plan, hscene, h.index]

theorem plan_eq_compile_iff (h : l.Refines memory r) {name : String} {e : CompileError} :
    (l.plan name).1 = .error (.compile e) ↔
      ∃ scene, r.scenes name = some scene ∧ r.catalogs.compile scene = .error e := by
  cases hscene : r.scenes name with
  | none =>
    rw [(h.plan_eq_unknownScene_iff).mpr hscene]
    simp
  | some scene =>
    rw [h.plan_of_registered hscene, mapError_eq_error_iff]
    simp only [LibraryError.compile.injEq, exists_eq_right, Option.some.injEq, exists_eq_left',
      PlanCache.getOrCompile_eq_error_iff h.current h.cache]
    rw [h.catalogs]

theorem plan_served (h : l.Refines memory r) {name : String} {scene : Scene} {p : Plan}
    (hscene : r.scenes name = some scene) (hcompile : r.catalogs.compile scene = .ok p) :
    ∃ served, (l.plan name).1 = .ok served ∧ scene.ServedBy r.catalogs served.value := by
  rw [h.plan_of_registered hscene]
  cases hanswer : (l.cache.getOrCompile scene l.catalogs (.build l.catalogs.value.items)).1 with
  | error e =>
    -- the scene compiles, so the cache cannot fail
    have herror := (PlanCache.getOrCompile_eq_error_iff h.current h.cache).mp hanswer
    rw [h.catalogs, hcompile] at herror
    cases herror
  | ok served =>
    refine ⟨served, rfl, ?_⟩
    rw [← h.catalogs]
    exact PlanCache.getOrCompile_served h.current h.cache hanswer

theorem mem_values_iff (h : l.Refines memory r) {scene : Scene} :
    scene ∈ l.scenes.values ↔ r.scenes scene.name = some scene := by
  rw [NameTable.values, List.mem_map, ← h.scenes, NameTable.get?_eq_some_iff]
  constructor
  -- every scene is kept under its own name
  · rintro ⟨⟨name, _⟩, hentry, rfl⟩
    rw [h.named name _ (NameTable.get?_eq_some_iff.mpr hentry)]
    exact hentry
  · exact fun hentry => ⟨_, hentry, rfl⟩

/-- The values of the table of scenes are the scenes registered. -/
theorem mem_values_iff_registered (h : l.Refines memory r) {scene : Scene} :
    scene ∈ l.scenes.values ↔ l.scenes.get? scene.name = some scene := by
  rw [h.mem_values_iff, h.scenes]

theorem compileAll_served (h : l.Refines memory r) {plans : NameTable (Shared Plan)}
    (hplans : l.compileAll.1 = .ok plans) (name : String) :
    (plans.get? name = none ↔ r.scenes name = none) ∧
      ∀ served, plans.get? name = some served →
        ∃ scene, r.scenes name = some scene ∧ scene.ServedBy r.catalogs served.value := by
  have hserves := h.compileAll_serves.2 plans hplans
  have hserved (served) (hplan : plans.get? name = some served) :
      ∃ scene, r.scenes name = some scene ∧ scene.ServedBy r.catalogs served.value := by
    obtain ⟨scene, hscene, rfl, hserved⟩ := hserves.served name served hplan
    exact ⟨scene, h.mem_values_iff.mp hscene, h.catalogs ▸ hserved⟩
  refine ⟨⟨fun hnone => ?_, fun hnone => ?_⟩, hserved⟩
  · by_contra hscene
    -- a registered scene is covered, and nothing is left to do
    obtain ⟨scene, hscene⟩ := Option.ne_none_iff_exists'.mp hscene
    have hname : scene.name = name := h.named name scene ((h.scenes name).trans hscene)
    subst hname
    rcases hserves.covered scene (h.mem_values_iff.mpr hscene) with htodo | ⟨served, hplan⟩
    · cases htodo
    · rw [hnone] at hplan
      cases hplan
  · cases hplan : plans.get? name with
    | none => rfl
    | some served =>
      obtain ⟨scene, hscene, -⟩ := hserved served hplan
      rw [hnone] at hscene
      cases hscene

end Refines

/-- **A library answers as if it compiled afresh.** After any calls on a new library, asking for a
plan fails exactly when no scene is registered under the name or the scene does not compile against
the current catalogs, and otherwise gives the plan of that scene or of one that compares as equal to
it. The plans of all scenes, when there are such, are plans of the same kind. -/
theorem answers_as_compiled_afresh (memory : Memory) (start : Nat) (calls : List Operation) :
    let l := run memory start calls
    let r := Registry.run memory start calls
    (∀ name,
      ((l.plan name).1 = .error (.unknownScene name) ↔ r.scenes name = none) ∧
      (∀ e, (l.plan name).1 = .error (.compile e) ↔
        ∃ scene, r.scenes name = some scene ∧ r.catalogs.compile scene = .error e) ∧
      ∀ scene p, r.scenes name = some scene → r.catalogs.compile scene = .ok p →
        ∃ served, (l.plan name).1 = .ok served ∧ scene.ServedBy r.catalogs served.value) ∧
    ∀ plans, l.compileAll.1 = .ok plans → ∀ name,
      (plans.get? name = none ↔ r.scenes name = none) ∧
      ∀ served, plans.get? name = some served →
        ∃ scene, r.scenes name = some scene ∧ scene.ServedBy r.catalogs served.value := by
  intro l r
  -- whatever calls led to the library, its answers are read off the tie
  have h : l.Refines memory r := run_refines memory start calls
  refine ⟨fun name => ⟨h.plan_eq_unknownScene_iff, fun e => h.plan_eq_compile_iff, ?_⟩, ?_⟩
  · exact fun scene p => h.plan_served
  · exact fun plans => h.compileAll_served

/-- A scene whose arc height is no number. -/
def nanArcs : Scene :=
  { name := "arcs", parameters := { arcHeight := some .nan } }

theorem not_beq_nanArcs (s : Scene) : ¬(s == nanArcs) = true := by
  intro h
  have hnan := Scene.holdsNaN_eq_false_of_beq h
  revert hnan
  decide

/-- **No equal scene** has to exist: a scene that holds NaN is compiled and served, and compares as
equal to nothing, itself included. -/
theorem served_without_equal_scene :
    ¬∀ (memory : Memory) (start : Nat) (calls : List Operation) (name : String) (scene : Scene)
        (p : Plan),
      (Registry.run memory start calls).scenes name = some scene →
      (Registry.run memory start calls).catalogs.compile scene = .ok p →
        ∃ served, ((run memory start calls).plan name).1 = .ok served ∧
          ∃ s₀, (s₀ == scene) = true ∧
            (Registry.run memory start calls).catalogs.compile s₀ = .ok served.value := by
  intro h
  obtain ⟨served, -, s₀, hbeq, -⟩ :=
    h (fun _ => {}) 0 [.setScene nanArcs] "arcs" nanArcs _ rfl rfl
  exact not_beq_nanArcs s₀ hbeq

end Library

end RenderPlan
