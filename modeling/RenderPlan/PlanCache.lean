import RenderPlan.Plan.Compile

/-!
# Plan cache

Plans are cached by the name of their scene. Catalogs and plans are shared values, told apart by
the allocation that holds them: a cached plan is fresh while the catalogs are the very allocation
it was compiled from and the scene equals the one it was compiled from. Scenes are compared
numerically, so a scene that holds NaN is never fresh.

## Main definitions

* `Shared`: a value in an allocation.
* `PlanCache`, `PlanCache.Statistics`.
* `PlanCache.lookup`, `insert`, `getOrCompile`, `invalidate`, `clear`: the operations.
-/

namespace RenderPlan

/-- A value in an allocation. Allocations are told apart by their numbers. -/
structure Shared (α : Type) where
  allocation : Nat
  value : α
deriving DecidableEq

/-- What the cache has been asked and answered. -/
structure PlanCache.Statistics where
  lookups : Nat := 0
  /-- Look-ups that found a fresh plan. -/
  hits : Nat := 0
  /-- Look-ups that found no plan, or a stale one. -/
  misses : Nat := 0
  /-- Plans dropped because they were stale or no longer wanted. -/
  invalidations : Nat := 0
deriving DecidableEq

namespace PlanCache.Statistics

/-- The share of look-ups that were hits, zero before the first one. -/
def hitRate (s : Statistics) : Binary64 :=
  if s.lookups = 0 then 0 else .ofRatio false s.hits s.lookups

end PlanCache.Statistics

/-- A cached plan with what it was compiled from. -/
structure PlanCache.Entry where
  catalogs : Shared Catalogs
  scene : Scene
  plan : Shared Plan
deriving DecidableEq

namespace PlanCache.Entry

/-- The plan was compiled from these catalogs and an equal scene. -/
def isFresh (e : Entry) (scene : Scene) (catalogs : Shared Catalogs) : Bool :=
  e.catalogs.allocation == catalogs.allocation && e.scene == scene

end PlanCache.Entry

/-- Cached plans, with the number of the next plan to be allocated. -/
structure PlanCache where
  entries : NameTable PlanCache.Entry := .empty
  statistics : PlanCache.Statistics := {}
  nextAllocation : Nat := 0
deriving DecidableEq

namespace PlanCache

/-- Puts a plan into an allocation of its own. -/
def allocate (c : PlanCache) (plan : Plan) : Shared Plan × PlanCache :=
  (⟨c.nextAllocation, plan⟩, { c with nextAllocation := c.nextAllocation + 1 })

/-- The cached plan of a scene, if it is fresh. A stale plan is dropped. -/
def lookup (c : PlanCache) (scene : Scene) (catalogs : Shared Catalogs) :
    Option (Shared Plan) × PlanCache :=
  let statistics := { c.statistics with lookups := c.statistics.lookups + 1 }
  match c.entries.get? scene.name with
  | none => (none, { c with statistics := { statistics with misses := statistics.misses + 1 } })
  | some entry =>
    if entry.isFresh scene catalogs then
      (some entry.plan, { c with statistics := { statistics with hits := statistics.hits + 1 } })
    else
      (none, { c with
        entries := c.entries.erase scene.name
        statistics := { statistics with
          misses := statistics.misses + 1
          invalidations := statistics.invalidations + 1 } })

/-- Caches a plan for a scene, in place of any plan cached under its name. -/
def insert (c : PlanCache) (scene : Scene) (catalogs : Shared Catalogs) (plan : Shared Plan) :
    PlanCache :=
  { c with entries := c.entries.insert scene.name ⟨catalogs, scene, plan⟩ }

/-- Caches a newly compiled plan. -/
def store (c : PlanCache) (scene : Scene) (catalogs : Shared Catalogs) (plan : Plan) :
    Shared Plan × PlanCache :=
  let (shared, c) := c.allocate plan
  (shared, c.insert scene catalogs shared)

/-- The cached plan of a scene, or else a new one, cached for the next time. A scene that does not
compile leaves no plan. -/
def getOrCompile (c : PlanCache) (scene : Scene) (catalogs : Shared Catalogs)
    (index : TriggerIndex) : Except CompileError (Shared Plan) × PlanCache :=
  match c.lookup scene catalogs with
  | (some plan, c) => (.ok plan, c)
  | (none, c) =>
    match scene.compile catalogs.value index with
    | .error e => (.error e, c)
    | .ok plan =>
      let (shared, c) := c.store scene catalogs plan
      (.ok shared, c)

/-- A plan is cached under the name. -/
def contains (c : PlanCache) (scene : String) : Bool := c.entries.contains scene

/-- Drops the plan cached under the name and says whether there was one. -/
def invalidate (c : PlanCache) (scene : String) : Bool × PlanCache :=
  if c.contains scene then
    (true, { c with
      entries := c.entries.erase scene
      statistics := { c.statistics with invalidations := c.statistics.invalidations + 1 } })
  else (false, c)

/-- Drops every plan, uncounted. -/
def clear (c : PlanCache) : PlanCache := { c with entries := .empty }

/-- Number of cached plans. -/
def size (c : PlanCache) : Nat := c.entries.size

end PlanCache

end RenderPlan
