import RenderPlan.Proofs.FailedCompileAll

/-!
# What becomes of the plans stored

A plan that is stored in a cache stays until it is dropped, and is counted then, or until another
plan takes its place or the cache is cleared, which nothing counts. A library stores a plan only
where a look-up has just missed and left no entry, and never clears its cache. So it forgets no
plan: of the plans stored, each is still cached or was counted when it was dropped, and is preceded
by a miss of its own. And since a library removes no scene without its plan, the plans that it
still caches are those of registered scenes.

## Main definitions

* `PlanCache.stores`, `PlanCache.forgets`: the plans that a call stores, and those that it loses
  uncounted
* `PlanCache.booked`: the plans that are cached or were counted when they were dropped
* `Library.stores`: the plans that a call of a library stores
* `Library.Balanced`: what holds of a library that has stored a number of plans

## Main results

* `PlanCache.booked_perform`, `PlanCache.booked_foldl_perform`: one call, and any number of them,
  book what they store and do not forget
* `Library.Balanced.perform`, `Library.Balanced.foldl_perform`: one call of a library, and any
  number of them, forget nothing
* `stored_plans_accounted_for`: the statistics after any calls
-/

namespace RenderPlan

namespace PlanCache

variable {cache : PlanCache} {scene : Scene} {catalogs : Shared Catalogs} {index : TriggerIndex}

/-! ## What calls store and forget -/

/-- The call looks a scene up. -/
def Operation.looksUp : Operation → Bool
  | .lookup .. | .getOrCompile .. => true
  | .insert .. | .invalidate _ | .clear => false

/-- The number of plans that a call stores: a plan that is inserted, or one that is compiled since
none was found. -/
def stores (cache : PlanCache) : Operation → Nat
  | .insert .. => 1
  | .getOrCompile scene catalogs index =>
    match (cache.lookup scene catalogs).1, scene.compile catalogs.value index with
    | none, .ok _ => 1
    | _, _ => 0
  | .lookup .. | .invalidate _ | .clear => 0

/-- The number of plans that a call loses without counting them. -/
def forgets (cache : PlanCache) : Operation → Nat
  | .insert scene _ _ => (cache.contains scene.name).toNat
  | .clear => cache.size
  | .lookup .. | .getOrCompile .. | .invalidate _ => 0

/-- What calls amount to, each measured on the cache that it is made on. -/
def total (amount : PlanCache → Operation → Nat) (cache : PlanCache) : List Operation → Nat
  | [] => 0
  | call :: rest => amount cache call + total amount (cache.perform call) rest

/-! ## Look-ups -/

theorem lookups_of_lookup (cache : PlanCache) (scene : Scene) (catalogs : Shared Catalogs) :
    let after := (cache.lookup scene catalogs).2.statistics
    after.lookups = cache.statistics.lookups + 1 ∧
      after.hits + after.misses = cache.statistics.hits + cache.statistics.misses + 1 := by
  intro after
  have hafter : after = cache.statistics + cache.tally catalogs [scene] :=
    lookup_statistics cache scene catalogs
  rw [hafter, Statistics.add_def, tally]
  refine ⟨rfl, ?_⟩
  cases hfresh : cache.fresh? catalogs scene <;> simp [hfresh] <;> omega

theorem getOrCompile_statistics (cache : PlanCache) (scene : Scene) (catalogs : Shared Catalogs)
    (index : TriggerIndex) :
    (cache.getOrCompile scene catalogs index).2.statistics =
      (cache.lookup scene catalogs).2.statistics := by
  rcases getOrCompile_cases cache scene catalogs index with
    ⟨p, -, heq⟩ | ⟨e, -, heq⟩ | ⟨plan, -, heq⟩
  · rw [heq]
  · rw [heq]
  · rw [heq]
    rfl

theorem invalidate_statistics (cache : PlanCache) (name : String) :
    (cache.invalidate name).2.statistics = cache.statistics +
      { invalidations := (cache.contains name).toNat } := by
  rw [invalidate]
  cases cache.contains name <;> rfl

/-- **One call** counts a look-up if it makes one, and as much of hits and misses. -/
theorem lookups_perform (cache : PlanCache) (call : Operation) :
    let after := (cache.perform call).statistics
    after.lookups = cache.statistics.lookups + call.looksUp.toNat ∧
      after.hits + after.misses =
        cache.statistics.hits + cache.statistics.misses + call.looksUp.toNat := by
  cases call with
  | lookup scene catalogs => exact lookups_of_lookup cache scene catalogs
  | getOrCompile scene catalogs index =>
    rw [perform, getOrCompile_statistics]
    exact lookups_of_lookup cache scene catalogs
  | insert scene catalogs plan => exact ⟨rfl, rfl⟩
  | invalidate name =>
    rw [perform, invalidate_statistics]
    exact ⟨rfl, rfl⟩
  | clear => exact ⟨rfl, rfl⟩

/-- **Any calls** count their look-ups. -/
theorem lookups_foldl_perform :
    ∀ (calls : List Operation) (cache : PlanCache),
      let after := (calls.foldl perform cache).statistics
      after.lookups = cache.statistics.lookups + calls.countP Operation.looksUp ∧
        after.hits + after.misses =
          cache.statistics.hits + cache.statistics.misses + calls.countP Operation.looksUp
  | [], _ => ⟨rfl, rfl⟩
  | call :: rest, cache => by
    obtain ⟨hlookups, hanswers⟩ := lookups_perform cache call
    obtain ⟨hlookups', hanswers'⟩ := lookups_foldl_perform rest (cache.perform call)
    rw [List.foldl_cons, List.countP_cons]
    cases hcall : call.looksUp <;> simp [hcall] at hlookups hanswers ⊢ <;> omega

/-! ## Plans on the books -/

/-- The plans that are cached or were counted when they were dropped. -/
def booked (cache : PlanCache) : Nat := cache.statistics.invalidations + cache.size

/-- **A look-up** loses no plan uncounted. -/
theorem booked_lookup (cache : PlanCache) (scene : Scene) (catalogs : Shared Catalogs) :
    (cache.lookup scene catalogs).2.booked = cache.booked := by
  cases hfresh : cache.fresh? catalogs scene with
  | some e =>
    have hstatistics := lookup_statistics cache scene catalogs
    rcases lookup_cases cache scene catalogs with ⟨_, -, -, -, hentries⟩ | ⟨hnone, -⟩
    · rw [booked, hstatistics, size, hentries]
      simp [tally, hfresh, Statistics.add_def, booked, size]
    · rw [(lookup_eq_fresh? ..).1, hfresh] at hnone
      cases hnone
  | none =>
    have hnone : (cache.lookup scene catalogs).1 = none := by
      rw [(lookup_eq_fresh? ..).1, hfresh, Option.map_none]
    -- the entry that is taken away, if there is one, is counted
    obtain ⟨hentries, hstatistics⟩ := lookup_of_not_found hnone
    have hsize := cache.entries.size_erase scene.name
    rw [booked, hstatistics, size, hentries, Statistics.add_def, booked, size, ← hsize]
    simp only [contains]
    omega

theorem booked_invalidate (cache : PlanCache) (name : String) :
    (cache.invalidate name).2.booked = cache.booked := by
  have hsize := cache.entries.size_erase name
  rw [invalidate]
  split
  · next hcontains =>
    rw [contains] at hcontains
    rw [hcontains, Bool.toNat_true] at hsize
    simp only [booked, size]
    omega
  · rfl

/-- **Storing a plan** adds it to the books, and strikes the one whose place it takes. -/
theorem booked_insert (cache : PlanCache) (scene : Scene) (catalogs : Shared Catalogs)
    (plan : Shared Plan) :
    (cache.insert scene catalogs plan).booked + (cache.contains scene.name).toNat =
      cache.booked + 1 := by
  have hsize := cache.entries.size_insert scene.name ⟨catalogs, scene, plan⟩
  simp only [booked, size, insert, contains]
  omega

theorem booked_store_of_absent (plan : Plan) (habsent : cache.contains scene.name = false) :
    (cache.store scene catalogs plan).2.booked = cache.booked + 1 := by
  have hinsert := (cache.allocate plan).2.booked_insert scene catalogs (cache.allocate plan).1
  rw [contains, show (cache.allocate plan).2.entries = cache.entries from rfl, ← contains,
    habsent] at hinsert
  exact hinsert

/-- No entry is left of a scene that a look-up does not find. -/
theorem contains_of_not_found (h : (cache.lookup scene catalogs).1 = none) :
    (cache.lookup scene catalogs).2.contains scene.name = false := by
  rw [contains, NameTable.contains, (lookup_of_not_found h).1, NameTable.get?_erase, if_pos rfl]
  rfl

/-- **A call for a plan** leaves what its look-up leaves, or stores a plan on top when the look-up
has found none. -/
theorem getOrCompile_stores_cases (cache : PlanCache) (scene : Scene) (catalogs : Shared Catalogs)
    (index : TriggerIndex) :
    let stored := cache.stores (.getOrCompile scene catalogs index)
    let after := (cache.getOrCompile scene catalogs index).2
    stored = 0 ∧ after = (cache.lookup scene catalogs).2 ∨
      stored = 1 ∧ (cache.lookup scene catalogs).1 = none ∧
        ∃ plan, after = ((cache.lookup scene catalogs).2.store scene catalogs plan).2 := by
  intro stored after
  simp only [stored, after, stores]
  cases hfound : (cache.lookup scene catalogs).1 with
  | some p =>
    rw [getOrCompile_of_found hfound]
    exact .inl ⟨rfl, rfl⟩
  | none =>
    rcases getOrCompile_cases cache scene catalogs index with
      ⟨p, hp, -⟩ | ⟨e, he, heq⟩ | ⟨plan, hplan, heq⟩
    · cases hfound.symm.trans hp
    · rw [heq, he]
      exact .inl ⟨rfl, rfl⟩
    · rw [heq, hplan]
      exact .inr ⟨rfl, rfl, plan, rfl⟩

/-- **A call for a plan** replaces no entry. -/
theorem booked_getOrCompile (cache : PlanCache) (scene : Scene) (catalogs : Shared Catalogs)
    (index : TriggerIndex) :
    (cache.getOrCompile scene catalogs index).2.booked =
      cache.booked + cache.stores (.getOrCompile scene catalogs index) := by
  rcases getOrCompile_stores_cases cache scene catalogs index with
    ⟨hstored, hafter⟩ | ⟨hstored, hnone, plan, hafter⟩
  · rw [hstored, hafter, booked_lookup, Nat.add_zero]
  · rw [hstored, hafter, booked_store_of_absent plan (contains_of_not_found hnone), booked_lookup]

theorem nextAllocation_getOrCompile (cache : PlanCache) (scene : Scene)
    (catalogs : Shared Catalogs) (index : TriggerIndex) :
    (cache.getOrCompile scene catalogs index).2.nextAllocation =
      cache.nextAllocation + cache.stores (.getOrCompile scene catalogs index) := by
  rcases getOrCompile_stores_cases cache scene catalogs index with
    ⟨hstored, hafter⟩ | ⟨hstored, -, plan, hafter⟩
  · rw [hstored, hafter, lookup_nextAllocation, Nat.add_zero]
  · rw [hstored, hafter]
    exact congrArg Nat.succ (lookup_nextAllocation ..)

/-- **A call for a plan** that stores one has counted a miss. -/
theorem misses_getOrCompile (cache : PlanCache) (scene : Scene) (catalogs : Shared Catalogs)
    (index : TriggerIndex) :
    cache.statistics.misses + cache.stores (.getOrCompile scene catalogs index) ≤
      (cache.getOrCompile scene catalogs index).2.statistics.misses := by
  rw [getOrCompile_statistics]
  rcases getOrCompile_stores_cases cache scene catalogs index with
    ⟨hstored, -⟩ | ⟨hstored, hnone, -⟩
  · rw [hstored, lookup_statistics]
    exact Nat.le_add_right ..
  · rw [hstored, (lookup_of_not_found hnone).2]
    exact Nat.le_refl _

/-- **One call** books the plans that it stores, and strikes those that it forgets. -/
theorem booked_perform (cache : PlanCache) (call : Operation) :
    (cache.perform call).booked + cache.forgets call = cache.booked + cache.stores call := by
  cases call with
  | lookup scene catalogs => exact booked_lookup cache scene catalogs
  | getOrCompile scene catalogs index => exact booked_getOrCompile cache scene catalogs index
  | insert scene catalogs plan => exact booked_insert cache scene catalogs plan
  | invalidate name => exact booked_invalidate cache name
  | clear => rfl

/-- **Any calls** book the plans that they store, less those that they forget. -/
theorem booked_foldl_perform :
    ∀ (calls : List Operation) (cache : PlanCache),
      (calls.foldl perform cache).booked + cache.total forgets calls =
        cache.booked + cache.total stores calls
  | [], _ => rfl
  | call :: rest, cache => by
    have hcall := booked_perform cache call
    have hrest := booked_foldl_perform rest (cache.perform call)
    rw [List.foldl_cons, total, total]
    omega

end PlanCache

namespace Library

variable {memory : Memory} {l : Library} {r : Registry}

/-- The scenes before the first that does not compile. -/
def beforeBroken (catalogs : Catalogs) (index : TriggerIndex) (scenes : List Scene) : List Scene :=
  scenes.takeWhile fun scene => (scene.compile catalogs index).isOk

/-- The number of plans that a call stores: the one that a call for a plan stores, or those of the
scenes without a fresh plan before the first that does not compile. -/
def stores (l : Library) : Operation → Nat
  | .plan name =>
    match l.scenes.get? name with
    | none => 0
    | some scene => l.cache.stores (.getOrCompile scene l.catalogs l.index)
  | .compileAll => (beforeBroken l.catalogs.value l.index l.survey.pending).length
  | .setScene _ | .removeScene _ | .replaceCatalogs _ => 0

/-- The number of plans that calls store. -/
def stored (memory : Memory) (l : Library) : List Operation → Nat
  | [] => 0
  | call :: rest => l.stores call + stored memory (l.perform memory call) rest

/-- **A call for one plan** leaves a library as it is, or its cache as a call of the cache does. -/
theorem perform_plan_cases (l : Library) (memory : Memory) (name : String) :
    let after := l.perform memory (.plan name)
    l.stores (.plan name) = 0 ∧ after = l ∨
      ∃ scene, l.stores (.plan name) = l.cache.stores (.getOrCompile scene l.catalogs l.index) ∧
        after.cache = (l.cache.getOrCompile scene l.catalogs l.index).2 := by
  intro after
  simp only [after, perform, stores]
  cases hscene : l.scenes.get? name with
  | none =>
    rw [Library.plan, hscene]
    exact .inl ⟨rfl, rfl⟩
  | some scene =>
    rw [l.plan_eq_getOrCompile hscene]
    exact .inr ⟨scene, rfl, rfl⟩

/-! ## All plans at once -/

section Pending

variable {catalogs : Shared Catalogs} {index : TriggerIndex} {scene : Scene} {rest : List Scene}

theorem beforeBroken_cons_of_ok {plan : Plan}
    (h : scene.compile catalogs.value index = .ok plan) :
    beforeBroken catalogs.value index (scene :: rest) =
      scene :: beforeBroken catalogs.value index rest :=
  List.takeWhile_cons_of_pos (by rw [h]; rfl)

theorem beforeBroken_cons_of_error {e : CompileError}
    (h : scene.compile catalogs.value index = .error e) :
    beforeBroken catalogs.value index (scene :: rest) = [] :=
  List.takeWhile_cons_of_neg (by rw [h]; exact Bool.false_ne_true)

theorem visits_booked (catalogs : Shared Catalogs) :
    ∀ (scenes : List Scene) (s : Survey),
      (scenes.foldl (Survey.visit catalogs) s).cache.booked = s.cache.booked
  | [], _ => rfl
  | scene :: rest, s => by
    rw [List.foldl_cons, visits_booked catalogs rest, visit_cache, PlanCache.booked_lookup]

/-- **Scenes without entries** are stored up to the first that does not compile. -/
theorem compilePending_booked (catalogs : Shared Catalogs) (index : TriggerIndex) :
    ∀ (pending : List Scene) (plans : NameTable (Shared Plan)) (cache : PlanCache),
      (pending.map Scene.name).Nodup →
      (∀ scene ∈ pending, cache.contains scene.name = false) →
      (compilePending catalogs index pending plans cache).2.booked =
        cache.booked + (beforeBroken catalogs.value index pending).length
  | [], _, _, _, _ => rfl
  | first :: rest, plans, cache, hnames, habsent => by
    obtain ⟨hfirst, hrest⟩ := List.nodup_cons.mp hnames
    obtain ⟨hfirstAbsent, hrestAbsent⟩ := List.forall_mem_cons.mp habsent
    cases hplan : first.compile catalogs.value index with
    | error e => rw [compilePending_cons_of_error hplan, beforeBroken_cons_of_error hplan]; rfl
    | ok plan =>
      -- the new entry is of another name than the scenes still to come
      have hothers : ∀ scene ∈ rest,
          (cache.store first catalogs plan).2.contains scene.name = false := by
        intro scene hscene
        have hname : scene.name ≠ first.name := fun h => hfirst (h ▸ List.mem_map_of_mem hscene)
        rw [← hrestAbsent scene hscene]
        exact congrArg Option.isSome (PlanCache.store_entry_of_ne cache catalogs plan hname)
      rw [compilePending_cons_of_ok hplan, beforeBroken_cons_of_ok hplan,
        compilePending_booked catalogs index rest _ _ hrest hothers,
        PlanCache.booked_store_of_absent plan hfirstAbsent, List.length_cons]
      omega

/-- Every plan stored is in a new allocation. -/
theorem compilePending_nextAllocation (catalogs : Shared Catalogs) (index : TriggerIndex) :
    ∀ (pending : List Scene) (plans : NameTable (Shared Plan)) (cache : PlanCache),
      (compilePending catalogs index pending plans cache).2.nextAllocation =
        cache.nextAllocation + (beforeBroken catalogs.value index pending).length
  | [], _, _ => rfl
  | first :: rest, plans, cache => by
    cases hplan : first.compile catalogs.value index with
    | error e => rw [compilePending_cons_of_error hplan, beforeBroken_cons_of_error hplan]; rfl
    | ok plan =>
      rw [compilePending_cons_of_ok hplan, beforeBroken_cons_of_ok hplan,
        compilePending_nextAllocation catalogs index rest, List.length_cons]
      show cache.nextAllocation + 1 + _ = _
      omega

end Pending

namespace Refines

/-- Nothing is cached of the scenes that a survey leaves pending. -/
theorem contains_survey_of_pending (h : l.Refines memory r) {scene : Scene}
    (hscene : scene ∈ l.survey.pending) : l.survey.cache.contains scene.name = false := by
  obtain ⟨hregistered, hstale⟩ := h.mem_pending_iff.mp hscene
  have hvalue : scene ∈ l.scenes.values := h.mem_values_iff_registered.mpr hregistered
  rw [PlanCache.contains, NameTable.contains, (h.survey_entry hvalue).1, hstale]
  rfl

/-- **One call** of a library forgets no plan. -/
theorem booked_perform (h : l.Refines memory r) (call : Operation) :
    (l.perform memory call).cache.booked = l.cache.booked + l.stores call := by
  cases call with
  | setScene scene => rfl
  | replaceCatalogs allocation => rfl
  | removeScene name => exact l.cache.booked_invalidate name
  | plan name =>
    rcases l.perform_plan_cases memory name with ⟨hstored, hleft⟩ | ⟨scene, hstored, hleft⟩
    · rw [hstored, hleft, Nat.add_zero]
    · rw [hstored, hleft]
      exact PlanCache.booked_getOrCompile ..
  | compileAll =>
    refine (compilePending_booked l.catalogs l.index _ _ _ h.nodup_pending
      fun scene hscene => h.contains_survey_of_pending hscene).trans ?_
    rw [survey, visits_booked]
    rfl

/-- **One call** of a library counts a miss for every plan that it stores. -/
theorem misses_perform (h : l.Refines memory r) (call : Operation) :
    l.cache.statistics.misses + l.stores call ≤
      (l.perform memory call).cache.statistics.misses := by
  cases call with
  | setScene scene => exact Nat.le_refl _
  | replaceCatalogs allocation => exact Nat.le_refl _
  | removeScene name =>
    show _ ≤ (l.cache.invalidate name).2.statistics.misses
    rw [PlanCache.invalidate_statistics]
    exact Nat.le_refl _
  | plan name =>
    rcases l.perform_plan_cases memory name with ⟨hstored, hleft⟩ | ⟨scene, hstored, hleft⟩
    · rw [hstored, hleft]
      exact Nat.le_refl _
    · rw [hstored, hleft]
      exact PlanCache.misses_getOrCompile ..
  | compileAll =>
    have hleft : (l.perform memory .compileAll).cache.statistics =
        l.cache.statistics + l.cache.tally l.catalogs l.scenes.values :=
      (compilePending_statistics ..).trans (visits_statistics _ _ _ h.nodup_names)
    -- no more scenes are compiled than were missed
    have hmissed : l.survey.pending.length =
        (l.cache.tally l.catalogs l.scenes.values).misses := by
      rw [h.survey_pending, ← List.countP_eq_length_filter]
      rfl
    rw [hleft]
    refine Nat.add_le_add_left ?_ _
    rw [← hmissed]
    exact (List.takeWhile_sublist _).length_le

/-- Only removing a scene takes it away. -/
theorem registered_perform (h : l.Refines memory r) {call : Operation} {name : String}
    (hremove : call ≠ .removeScene name) {scene : Scene}
    (hscene : l.scenes.get? name = some scene) :
    ∃ scene', (l.perform memory call).scenes.get? name = some scene' := by
  rw [h.scenes] at hscene
  rw [(perform_refines h call).scenes]
  cases call with
  | setScene other =>
    show ∃ scene', Function.update r.scenes other.name (some other) name = some scene'
    rw [Function.update_apply]
    split
    · exact ⟨other, rfl⟩
    · exact ⟨scene, hscene⟩
  | removeScene other =>
    have hname : name ≠ other := fun hname => hremove (hname ▸ rfl)
    exact ⟨scene, (Function.update_of_ne hname ..).trans hscene⟩
  | replaceCatalogs allocation => exact ⟨scene, hscene⟩
  | plan other => exact ⟨scene, hscene⟩
  | compileAll => exact ⟨scene, hscene⟩

/-- **One call** leaves no plan of a scene that it removes, and caches none but of scenes that are
registered. -/
theorem cached_perform (h : l.Refines memory r)
    (hcached : ∀ name, l.cache.contains name = true → ∃ scene, l.scenes.get? name = some scene)
    (call : Operation) (name : String)
    (hafter : (l.perform memory call).cache.contains name = true) :
    ∃ scene, (l.perform memory call).scenes.get? name = some scene := by
  rcases h.perform_cases call name with
    ⟨-, hnone⟩ | ⟨hremove, -, hsame⟩ | ⟨hremove, scene, hscene, rfl, -⟩
  · rw [PlanCache.contains, NameTable.contains, hnone] at hafter
    cases hafter
  · rw [PlanCache.contains, NameTable.contains, hsame] at hafter
    obtain ⟨scene, hscene⟩ := hcached name hafter
    exact h.registered_perform hremove hscene
  · exact h.registered_perform hremove (h.registered_of_mem_lookedUp hscene)

end Refines

/-- **One call** of a library puts every plan that it stores into a new allocation. -/
theorem nextAllocation_perform (l : Library) (memory : Memory) (call : Operation) :
    (l.perform memory call).cache.nextAllocation = l.cache.nextAllocation + l.stores call := by
  cases call with
  | setScene scene => rfl
  | replaceCatalogs allocation => rfl
  | removeScene name =>
    show (l.cache.invalidate name).2.nextAllocation = _
    rw [PlanCache.invalidate]
    split <;> rfl
  | plan name =>
    rcases l.perform_plan_cases memory name with ⟨hstored, hleft⟩ | ⟨scene, hstored, hleft⟩
    · rw [hstored, hleft, Nat.add_zero]
    · rw [hstored, hleft]
      exact PlanCache.nextAllocation_getOrCompile ..
  | compileAll =>
    refine (compilePending_nextAllocation l.catalogs l.index _ _ _).trans ?_
    rw [survey, visits_nextAllocation]
    rfl

/-! ## Calls in turn -/

/-- **The books of a library** that has stored a number of plans: each is cached or was counted when
it was dropped, is preceded by a miss of its own and has an allocation of its own, and those cached
are the plans of registered scenes. -/
structure Balanced (l : Library) (stored : Nat) : Prop where
  booked : l.cache.booked = stored
  missed : stored ≤ l.cache.statistics.misses
  allocated : l.cache.nextAllocation = stored
  cached : ∀ name, l.cache.contains name = true → ∃ scene, l.scenes.get? name = some scene

theorem balanced_ofCatalogs (catalogs : Shared Catalogs) : (ofCatalogs catalogs).Balanced 0 where
  booked := rfl
  missed := Nat.le_refl _
  allocated := rfl
  cached _ h := nomatch h

namespace Balanced

variable {stored : Nat}

/-- **One call** keeps the books balanced. -/
theorem perform (hl : l.Balanced stored) (h : l.Refines memory r) (call : Operation) :
    (l.perform memory call).Balanced (stored + l.stores call) where
  booked := by rw [h.booked_perform call, hl.booked]
  missed := Nat.le_trans (Nat.add_le_add_right hl.missed _) (h.misses_perform call)
  allocated := by rw [nextAllocation_perform, hl.allocated]
  cached := h.cached_perform hl.cached call

/-- **Any calls** keep the books balanced. -/
theorem foldl_perform :
    ∀ (calls : List Operation) {l : Library} {r : Registry} {stored : Nat},
      l.Balanced stored → l.Refines memory r →
      (calls.foldl (Library.perform memory) l).Balanced (stored + l.stored memory calls)
  | [], _, _, _, hl, _ => hl
  | call :: rest, _, _, _, hl, h => by
    rw [List.foldl_cons, Library.stored, ← Nat.add_assoc]
    exact foldl_perform rest (hl.perform h call) (perform_refines h call)

end Balanced

end Library

/-- **Stored plans are accounted for.** After any calls on a new plan cache, the look-ups counted
are the calls that look a scene up, and each is counted as a hit or a miss. Of the plans stored,
each is cached, was counted when it was dropped, or is one of those that gave way to another plan of
their name or were cleared away. After any calls on a new library, there are none of the latter:
each plan stored is cached or was counted when it was dropped, no more plans are stored than misses
counted, and a plan that is cached is cached under the name of a registered scene. -/
theorem stored_plans_accounted_for :
    (∀ calls : List PlanCache.Operation,
      let cache := PlanCache.run calls
      let stored := PlanCache.total PlanCache.stores {} calls
      let forgotten := PlanCache.total PlanCache.forgets {} calls
      cache.statistics.lookups = cache.statistics.hits + cache.statistics.misses ∧
      cache.statistics.lookups = calls.countP PlanCache.Operation.looksUp ∧
      cache.statistics.invalidations + cache.size ≤ stored ∧
      cache.statistics.invalidations + cache.size + forgotten = stored) ∧
    ∀ (memory : Memory) (start : Nat) (calls : List Library.Operation),
      let l := Library.run memory start calls
      let stored := (Library.ofCatalogs ⟨start, memory start⟩).stored memory calls
      stored = l.cache.statistics.invalidations + l.cache.size ∧
      stored ≤ l.cache.statistics.misses ∧
      stored = l.cache.nextAllocation ∧
      ∀ name, l.cache.contains name = true → ∃ scene, l.scenes.get? name = some scene := by
  refine ⟨fun calls => ?_, fun memory start calls => ?_⟩
  · intro cache stored forgotten
    obtain ⟨hlookups, hanswers⟩ := PlanCache.lookups_foldl_perform calls {}
    have hbooked : cache.booked + forgotten = ({} : PlanCache).booked + stored :=
      PlanCache.booked_foldl_perform calls {}
    have hempty : ({} : PlanCache).booked = 0 := rfl
    rw [hempty, Nat.zero_add] at hbooked
    refine ⟨hlookups.trans hanswers.symm, hlookups.trans (Nat.zero_add _), ?_, hbooked⟩
    exact hbooked ▸ Nat.le_add_right ..
  · intro l stored
    have hl : l.Balanced (0 + stored) :=
      (Library.balanced_ofCatalogs _).foldl_perform calls (Library.Refines.ofCatalogs start)
    rw [Nat.zero_add] at hl
    exact ⟨hl.booked.symm, hl.missed, hl.allocated.symm, hl.cached⟩

end RenderPlan
