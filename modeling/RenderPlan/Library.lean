import RenderPlan.Document
import RenderPlan.PlanCache

/-!
# Scene libraries

A library holds named scenes over one set of catalogs, with the trigger index of those catalogs and
a plan cache, and compiles scenes when they are asked for.

## Main definitions

* `Library`, `Library.ofCatalogs`, `Library.ofParts`.
* `Library.setScene`, `removeScene`, `replaceCatalogs`: changing it.
* `Library.plan`, `Library.compileAll`: asking for one plan or for all.
-/

namespace RenderPlan

/-- Named scenes, compiled on demand over one set of catalogs. -/
structure Library where
  catalogs : Shared Catalogs
  index : TriggerIndex
  scenes : NameTable Scene := .empty
  cache : PlanCache := {}
deriving DecidableEq

/-- Why a library has no plan to give. -/
inductive LibraryError where
  | unknownScene (name : String)
  | compile (e : CompileError)
deriving DecidableEq

namespace LibraryError

/-- The wording of the error. -/
def message : LibraryError → String
  | .unknownScene name => "unknown scene `" ++ name ++ "`"
  | .compile e => e.message

end LibraryError

namespace Library

/-- A library without scenes. -/
def ofCatalogs (catalogs : Shared Catalogs) : Library where
  catalogs
  index := .build catalogs.value.items

/-- Adds a scene, in place of any of its name, which is returned. -/
def setScene (l : Library) (scene : Scene) : Option Scene × Library :=
  (l.scenes.get? scene.name, { l with scenes := l.scenes.insert scene.name scene })

/-- The library of catalogs and scenes. -/
def ofParts (catalogs : Shared Catalogs) (scenes : List Scene) : Library :=
  scenes.foldl (fun l scene => (l.setScene scene).2) (ofCatalogs catalogs)

/-- Removes a scene, which is returned, and the plan cached under its name. -/
def removeScene (l : Library) (name : String) : Option Scene × Library :=
  (l.scenes.get? name,
    { l with scenes := l.scenes.erase name, cache := (l.cache.invalidate name).2 })

/-- Takes other catalogs. Cached plans stay until they are looked up. -/
def replaceCatalogs (l : Library) (catalogs : Shared Catalogs) : Library :=
  { l with catalogs, index := .build catalogs.value.items }

/-- The plan of a scene, compiled unless it is cached. -/
def plan (l : Library) (name : String) : Except LibraryError (Shared Plan) × Library :=
  match l.scenes.get? name with
  | none => (.error (.unknownScene name), l)
  | some scene =>
    let (result, cache) := l.cache.getOrCompile scene l.catalogs l.index
    (result.mapError .compile, { l with cache })

/-- Plans found so far, scenes still to compile, and the cache after the look-ups. -/
structure Survey where
  plans : NameTable (Shared Plan) := .empty
  pending : List Scene := []
  cache : PlanCache

/-- Looks one scene up. -/
def Survey.visit (catalogs : Shared Catalogs) (s : Survey) (scene : Scene) : Survey :=
  match s.cache.lookup scene catalogs with
  | (some plan, cache) => { s with plans := s.plans.insert scene.name plan, cache }
  | (none, cache) => { s with pending := s.pending ++ [scene], cache }

/-- Looks every scene up, in the order of the names. -/
def survey (l : Library) : Survey :=
  l.scenes.values.foldl (Survey.visit l.catalogs) { cache := l.cache }

/-- Compiles and caches scenes in order until one does not compile. -/
def compilePending (catalogs : Shared Catalogs) (index : TriggerIndex) :
    List Scene → NameTable (Shared Plan) → PlanCache →
      Except CompileError (NameTable (Shared Plan)) × PlanCache
  | [], plans, cache => (.ok plans, cache)
  | scene :: rest, plans, cache =>
    match scene.compile catalogs.value index with
    | .error e => (.error e, cache)
    | .ok plan =>
      let (shared, cache) := cache.store scene catalogs plan
      compilePending catalogs index rest (plans.insert scene.name shared) cache

/-- The plans of all scenes by name. Every scene is looked up before any is compiled; the first
that does not compile, in the order of the names, is the error. -/
def compileAll (l : Library) : Except LibraryError (NameTable (Shared Plan)) × Library :=
  let s := l.survey
  let (result, cache) := compilePending l.catalogs l.index s.pending s.plans s.cache
  (result.mapError .compile, { l with cache })

end Library

end RenderPlan
