import RenderPlan.Proofs.CacheEntries

/-!
# Calls on a plan cache

A plan cache can be asked for plans, given plans and told to drop them, in any order. Whatever was
called, every entry is cached under the name of its scene.

A call for a plan looks the scene up before it compiles it, and the look-up drops a stale entry. So
if the scene does not compile, an older plan of its name is gone, which could still have been served
for the inputs it was compiled from. Nothing else is lost, and where there was no older plan the
call leaves every entry as it was.

## Main definitions

* `PlanCache.Operation`, `PlanCache.run`: the calls of a cache, and the cache after them
* `PlanCache.tally`: what is counted when some scenes are looked up
* `PlanCache.Alike`: two caches answer alike

## Main results

* `PlanCache.lookup_statistics`: what a look-up counts
* `PlanCache.named_run`: entries are cached under the names of their scenes
* `PlanCache.failed_call_drops_stale`: what a call leaves that fails to compile its scene
-/

namespace RenderPlan

namespace PlanCache

/-! ## Calls -/

/-- One call of a cache. -/
inductive Operation where
  | lookup (scene : Scene) (catalogs : Shared Catalogs)
  | insert (scene : Scene) (catalogs : Shared Catalogs) (plan : Shared Plan)
  | getOrCompile (scene : Scene) (catalogs : Shared Catalogs) (index : TriggerIndex)
  | invalidate (name : String)
  | clear

/-- The cache after one more call. -/
def perform (cache : PlanCache) : Operation → PlanCache
  | .lookup scene catalogs => (cache.lookup scene catalogs).2
  | .insert scene catalogs plan => cache.insert scene catalogs plan
  | .getOrCompile scene catalogs index => (cache.getOrCompile scene catalogs index).2
  | .invalidate name => (cache.invalidate name).2
  | .clear => cache.clear

/-- The cache after calls on a new one. -/
def run (calls : List Operation) : PlanCache := calls.foldl perform {}

variable {cache : PlanCache} {scene : Scene} {catalogs : Shared Catalogs} {name : String}

/-! ## What look-ups count -/

/-- What is counted on top of what has been counted. -/
instance : Add Statistics where
  add s t := ⟨s.lookups + t.lookups, s.hits + t.hits, s.misses + t.misses,
    s.invalidations + t.invalidations⟩

theorem Statistics.add_def (s t : Statistics) :
    s + t = ⟨s.lookups + t.lookups, s.hits + t.hits, s.misses + t.misses,
      s.invalidations + t.invalidations⟩ :=
  rfl

theorem Statistics.add_assoc (s t u : Statistics) : s + t + u = s + (t + u) := by
  simp [add_def, Nat.add_assoc]

/-- What is counted when each of some scenes is looked up: a look-up for each, a hit for each that
has a fresh entry and a miss for each that has none, and an entry dropped for each that has only a
stale one. -/
def tally (cache : PlanCache) (catalogs : Shared Catalogs) (scenes : List Scene) :
    Statistics where
  lookups := scenes.length
  hits := scenes.countP fun scene => (cache.fresh? catalogs scene).isSome
  misses := scenes.countP fun scene => (cache.fresh? catalogs scene).isNone
  invalidations := scenes.countP fun scene =>
    cache.contains scene.name && (cache.fresh? catalogs scene).isNone

/-- **A look-up** counts what the tally of its scene says. -/
theorem lookup_statistics (cache : PlanCache) (scene : Scene) (catalogs : Shared Catalogs) :
    (cache.lookup scene catalogs).2.statistics =
      cache.statistics + cache.tally catalogs [scene] := by
  cases hentry : cache.entries.get? scene.name with
  | none =>
    simp [lookup, tally, fresh?, contains, NameTable.contains, hentry, Statistics.add_def]
  | some e =>
    cases hfresh : e.isFresh scene catalogs <;>
      simp [lookup, tally, fresh?, contains, NameTable.contains, hentry, hfresh,
        Statistics.add_def]

theorem tally_cons (cache : PlanCache) (catalogs : Shared Catalogs) (scene : Scene)
    (rest : List Scene) :
    cache.tally catalogs (scene :: rest) =
      cache.tally catalogs [scene] + cache.tally catalogs rest := by
  simp [tally, List.countP_cons, Statistics.add_def, Nat.add_comm]

/-- Asking for a scene changes the tally of no others. -/
theorem AskedFor.tally {after : PlanCache} (h : cache.AskedFor name after) {scenes : List Scene}
    (hscenes : name ∉ scenes.map Scene.name) :
    after.tally catalogs scenes = cache.tally catalogs scenes := by
  have hname : ∀ scene ∈ scenes, scene.name ≠ name :=
    fun scene hscene heq => hscenes (heq ▸ List.mem_map_of_mem hscene)
  have hfresh : ∀ scene ∈ scenes, after.fresh? catalogs scene = cache.fresh? catalogs scene :=
    fun scene hscene => h.fresh? (hname scene hscene)
  have hcontains : ∀ scene ∈ scenes, after.contains scene.name = cache.contains scene.name :=
    fun scene hscene => congrArg Option.isSome (h.others _ (hname scene hscene))
  rw [PlanCache.tally, PlanCache.tally, Statistics.mk.injEq]
  refine ⟨rfl, List.countP_congr ?_, List.countP_congr ?_, List.countP_congr ?_⟩
  · intro scene hscene
    rw [hfresh scene hscene]
  · intro scene hscene
    rw [hfresh scene hscene]
  · intro scene hscene
    rw [hfresh scene hscene, hcontains scene hscene]

/-! ## Names -/

/-- Every entry is cached under the name of its scene. -/
def Named (cache : PlanCache) : Prop :=
  ∀ name e, cache.entries.get? name = some e → e.scene.name = name

theorem Named.erase (h : cache.Named) {after : PlanCache}
    (herased : after.entries = cache.entries.erase name) : after.Named := by
  intro other e he
  rw [herased, NameTable.get?_erase] at he
  split at he
  · cases he
  · exact h other e he

theorem Named.insert (h : cache.Named) (scene : Scene) (catalogs : Shared Catalogs)
    (plan : Shared Plan) : (cache.insert scene catalogs plan).Named := by
  intro name e he
  rw [PlanCache.insert, NameTable.get?_insert] at he
  split at he
  · next hname =>
    cases he
    exact hname.symm
  · exact h name e he

theorem invariant_named : Invariant Named where
  lookup {c} h scene catalogs := by
    rcases lookup_cases c scene catalogs with ⟨_, -, -, -, hentries⟩ | ⟨-, herased⟩
    · rw [Named, hentries]
      exact h
    · exact h.erase herased
  store {c} h scene catalogs plan := by
    have hallocated : (c.allocate plan).2.Named := h
    exact hallocated.insert scene catalogs _
  invalidate {c} h name := by
    rw [invalidate]
    split
    · exact h.erase rfl
    · exact h

/-- **One call** leaves every entry under the name of its scene. -/
theorem named_perform (h : cache.Named) : ∀ call, (cache.perform call).Named
  | .lookup scene catalogs => invariant_named.lookup h scene catalogs
  | .insert scene catalogs plan => h.insert scene catalogs plan
  | .getOrCompile scene catalogs index => invariant_named.getOrCompile h scene catalogs index
  | .invalidate name => invariant_named.invalidate h name
  | .clear => fun _ _ he => nomatch he

/-- **Any calls** on a new cache leave every entry under the name of its scene. -/
theorem named_run (calls : List Operation) : (run calls).Named := by
  induction calls using List.reverseRecOn with
  | nil => exact fun _ _ he => nomatch he
  | append_singleton calls call ih =>
    rw [run, List.foldl_concat]
    exact named_perform ih call

/-- A cached plan is found for the inputs that it was compiled from, unless its scene holds NaN and
so does not even equal itself. -/
theorem Named.lookup_self (h : cache.Named) {e : Entry} (he : cache.entries.get? name = some e) :
    (cache.lookup e.scene e.catalogs).1 =
      if e.scene == e.scene then some e.plan else none := by
  rw [(lookup_eq_fresh? ..).1, fresh?, h name e he, he, Option.filter_some, Entry.isFresh,
    beq_self_eq_true, Bool.true_and]
  split <;> rfl

/-! ## Calls that fail -/

/-- Two caches answer alike: they hold as many plans, under the same names, and look-ups find the
same plans in them. -/
structure Alike (c c' : PlanCache) : Prop where
  contains : ∀ name, c'.contains name = c.contains name
  size : c'.size = c.size
  lookup : ∀ scene catalogs, (c'.lookup scene catalogs).1 = (c.lookup scene catalogs).1

/-- What a look-up finds depends on the entry of the scene alone. -/
theorem lookup_congr {after : PlanCache}
    (h : after.entries.get? scene.name = cache.entries.get? scene.name) :
    (after.lookup scene catalogs).1 = (cache.lookup scene catalogs).1 := by
  rw [(lookup_eq_fresh? ..).1, (lookup_eq_fresh? ..).1, fresh?, fresh?, h]

section Erased

variable {after : PlanCache} (herased : after.entries = cache.entries.erase name)
include herased

/-- No plan is found under an erased name, and all others are found as before. -/
theorem lookup_of_erased (scene : Scene) (catalogs : Shared Catalogs) :
    (after.lookup scene catalogs).1 =
      if scene.name = name then none else (cache.lookup scene catalogs).1 := by
  split
  · next hname =>
    rw [lookup_eq_none_iff]
    intro e he
    rw [herased, NameTable.get?_erase, if_pos hname] at he
    cases he
  · next hname => exact lookup_congr (by rw [herased, NameTable.get?_erase, if_neg hname])

/-- Erasing a name is noticed exactly if an entry was cached under it. -/
theorem alike_of_erased_iff : cache.Alike after ↔ cache.contains name = false := by
  constructor
  · intro halike
    rw [← halike.contains, contains, herased, NameTable.contains, NameTable.get?_erase, if_pos rfl]
    rfl
  · intro habsent
    have hnone : cache.entries.get? name = none :=
      Option.isNone_iff_eq_none.mp (Option.isSome_eq_false_iff.mp habsent)
    have hentries : after.entries = cache.entries := by
      rw [herased, NameTable.erase_of_get?_eq_none hnone]
    exact ⟨fun _ => by rw [contains, contains, hentries], by rw [size, size, hentries],
      fun _ _ => lookup_congr (by rw [hentries])⟩

end Erased

/-- **A call fails** when the look-up finds nothing and the scene does not compile, and leaves what
the look-up has left. -/
theorem getOrCompile_eq_error {index : TriggerIndex} {e : CompileError}
    (h : (cache.getOrCompile scene catalogs index).1 = .error e) :
    (cache.lookup scene catalogs).1 = none ∧ scene.compile catalogs.value index = .error e ∧
      (cache.getOrCompile scene catalogs index).2 = (cache.lookup scene catalogs).2 := by
  cases hfound : (cache.lookup scene catalogs).1 with
  | some p =>
    rw [getOrCompile_of_found hfound] at h
    cases h
  | none =>
    rcases getOrCompile_cases cache scene catalogs index with
      ⟨p, -, heq⟩ | ⟨e', he', heq⟩ | ⟨plan, -, heq⟩
    · rw [heq] at h
      cases h
    · rw [heq] at h
      cases h
      exact ⟨rfl, he', by rw [heq]⟩
    · rw [heq] at h
      cases h

/-- **A look-up that finds nothing** takes away the entry of the scene, if there is one, and counts
that it did. -/
theorem lookup_of_not_found (h : (cache.lookup scene catalogs).1 = none) :
    (cache.lookup scene catalogs).2.entries = cache.entries.erase scene.name ∧
      (cache.lookup scene catalogs).2.statistics = cache.statistics +
        { lookups := 1, misses := 1, invalidations := (cache.contains scene.name).toNat } := by
  constructor
  · rcases lookup_cases cache scene catalogs with ⟨_, -, -, hfound, -⟩ | ⟨-, herased⟩
    · cases h.symm.trans hfound
    · exact herased
  · have hstale : cache.fresh? catalogs scene = none := by
      rw [(lookup_eq_fresh? ..).1] at h
      exact Option.map_eq_none_iff.mp h
    rw [lookup_statistics]
    cases hcontains : cache.contains scene.name <;> simp [tally, hstale, hcontains]

/-- **A failed call drops a stale plan.** After any calls on a new cache, a call for a plan that
fails returns the error of compiling the scene, and takes away the entry under the name of the scene
and nothing else. So the cache answers as before exactly if there was no such entry. If there was,
it was stale for the inputs asked for, but its plan was still found for the inputs that it was
compiled from; now no plan is found under the name. Of the statistics, one look-up and one miss are
counted, and the entry that is dropped. -/
theorem failed_call_drops_stale (calls : List Operation) (scene : Scene)
    (catalogs : Shared Catalogs) (index : TriggerIndex) (e : CompileError)
    (hfailed : ((run calls).getOrCompile scene catalogs index).1 = .error e) :
    let before := run calls
    let after := (before.getOrCompile scene catalogs index).2
    scene.compile catalogs.value index = .error e ∧
      after.entries = before.entries.erase scene.name ∧
      after.nextAllocation = before.nextAllocation ∧
      (before.Alike after ↔ before.contains scene.name = false) ∧
      after.size + (before.contains scene.name).toNat = before.size ∧
      (∀ other anywhere, (after.lookup other anywhere).1 =
        if other.name = scene.name then none else (before.lookup other anywhere).1) ∧
      (∀ stale, before.entries.get? scene.name = some stale →
        stale.isFresh scene catalogs = false ∧
        (before.lookup stale.scene stale.catalogs).1 =
          if stale.scene == stale.scene then some stale.plan else none) ∧
      after.statistics = before.statistics +
        { lookups := 1, misses := 1, invalidations := (before.contains scene.name).toNat } := by
  intro before after
  obtain ⟨hnone, hcompile, hafter⟩ := getOrCompile_eq_error hfailed
  obtain ⟨herased, hcounted⟩ := lookup_of_not_found hnone
  -- the call leaves what its look-up has left
  have hentries : after.entries = before.entries.erase scene.name :=
    (congrArg entries hafter).trans herased
  refine ⟨hcompile, hentries, ?_, alike_of_erased_iff hentries, ?_, lookup_of_erased hentries, ?_,
    (congrArg statistics hafter).trans hcounted⟩
  · exact (congrArg nextAllocation hafter).trans (lookup_nextAllocation ..)
  · rw [size, size, hentries]
    exact NameTable.size_erase ..
  · intro stale hstale
    exact ⟨lookup_eq_none_iff.mp hnone stale hstale, (named_run calls).lookup_self hstale⟩

/-- A scene that draws nothing. -/
def plainMain : Scene := { name := "main" }

/-- The same scene, changed to draw an item that is not there. -/
def brokenMain : Scene := { name := "main", render := ["missing"] }

/-- The scene is asked for before it is changed. -/
def plainCalls : List Operation := [.getOrCompile plainMain ⟨0, {}⟩ (.build .empty)]

/-- The plan of the scene before the change is found until the changed scene fails. -/
theorem failed_call_drops_main :
    let before := run plainCalls
    let failed := before.getOrCompile brokenMain ⟨0, {}⟩ (.build .empty)
    failed.1 = .error ⟨"main", "missing", .item⟩ ∧
      (∃ p, (before.lookup plainMain ⟨0, {}⟩).1 = some p) ∧
      (failed.2.lookup plainMain ⟨0, {}⟩).1 = none ∧ ¬before.Alike failed.2 := by
  intro before failed
  have hfailed : failed.1 = .error ⟨"main", "missing", .item⟩ := by decide
  obtain ⟨-, -, -, halike, -, hlookup, -⟩ :=
    failed_call_drops_stale plainCalls brokenMain ⟨0, {}⟩ (.build .empty) _ hfailed
  refine ⟨hfailed, ⟨_, rfl⟩, hlookup plainMain ⟨0, {}⟩, fun h => ?_⟩
  have habsent : before.contains "main" = false := halike.mp h
  revert habsent
  decide

/-- Not every failed call leaves the cache as it was. -/
theorem not_forall_failed_call_alike :
    ¬∀ (calls : List Operation) (scene : Scene) (catalogs : Shared Catalogs)
      (index : TriggerIndex) (e : CompileError),
      ((run calls).getOrCompile scene catalogs index).1 = .error e →
        (run calls).Alike ((run calls).getOrCompile scene catalogs index).2 := by
  intro h
  have hcontains := (h plainCalls brokenMain ⟨0, {}⟩ (.build .empty)
    ⟨"main", "missing", .item⟩ (by decide)).contains "main"
  revert hcontains
  decide

end PlanCache

end RenderPlan
