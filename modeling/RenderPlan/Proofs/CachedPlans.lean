import RenderPlan.PlanCache
import RenderPlan.Proofs.Compilation
import RenderPlan.Proofs.NumericalEquality

/-!
# What the plan cache serves

A cached plan is served for a scene that equals the one it was compiled from, and equal scenes may
differ in the signs of zeros. So a look-up serves the plan of the scene asked for or of an equal
one, compiled against the catalogs that are asked for. This holds because every entry stays tied to
the allocation that it was compiled from, whatever became of the library meanwhile.

## Main definitions

* `Memory`: what each allocation of catalogs holds
* `Scene.ServedBy`: the plan is that of the scene or of an equal one
* `PlanCache.Valid`: every entry holds a plan compiled from what the entry names

## Main results

* `PlanCache.lookup_served`: what a look-up finds serves the scene
* `PlanCache.getOrCompile_served`, `PlanCache.getOrCompile_eq_error_iff`: what the cache returns
  serves the scene, or is the error of compiling it
* `PlanCache.Valid.lookup`, `PlanCache.Valid.store`, `PlanCache.Valid.getOrCompile`,
  `PlanCache.Valid.invalidate`: every operation keeps the cache valid
-/

namespace RenderPlan

/-- What each allocation of catalogs holds. -/
abbrev Memory : Type := Nat → Catalogs

/-- The plan of a scene, compiled afresh against catalogs and their own trigger index. -/
def Catalogs.compile (c : Catalogs) (s : Scene) : Except CompileError Plan :=
  s.compile c (.build c.items)

/-- The plan is what compiling the scene gives, or a scene that compares as equal to it and so
differs from it at most in the signs of zeros. -/
def Scene.ServedBy (s : Scene) (c : Catalogs) (p : Plan) : Prop :=
  ∃ s₀, (s₀ = s ∨ (s₀ == s) = true) ∧ s₀.withoutZeroSigns = s.withoutZeroSigns ∧
    c.compile s₀ = .ok p

theorem Scene.servedBy_of_compile {s : Scene} {c : Catalogs} {p : Plan} (h : c.compile s = .ok p) :
    s.ServedBy c p :=
  ⟨s, .inl rfl, rfl, h⟩

/-- Errors of compiling do not tell equal scenes apart. -/
theorem Scene.compile_error_of_beq {s t : Scene} (h : (s == t) = true) {c : Catalogs}
    {index : TriggerIndex} {e : CompileError} :
    s.compile c index = .error e ↔ t.compile c index = .error e := by
  rw [compile_eq_error_iff, compile_eq_error_iff, FirstBroken, FirstBroken, name_eq_of_beq h,
    render_eq_of_beq h]

/-- A scene that is served compiles. -/
theorem Scene.ServedBy.compile_ne_error {s : Scene} {c : Catalogs} {p : Plan}
    (h : s.ServedBy c p) (e : CompileError) : c.compile s ≠ .error e := by
  obtain ⟨s₀, hs₀, -, hcompile⟩ := h
  intro he
  rcases hs₀ with rfl | hbeq
  · rw [hcompile] at he
    cases he
  · have he₀ := (compile_error_of_beq hbeq).mpr he
    rw [Catalogs.compile, he₀] at hcompile
    cases hcompile

namespace PlanCache

variable {memory : Memory} {cache : PlanCache}

/-- The plan of an entry was compiled from the scene and the allocation that the entry names. -/
def Entry.Valid (memory : Memory) (e : Entry) : Prop :=
  (memory e.catalogs.allocation).compile e.scene = .ok e.plan.value

/-- **The cache invariant**: every entry is valid, fresh or stale. -/
def Valid (memory : Memory) (cache : PlanCache) : Prop :=
  ∀ name e, cache.entries.get? name = some e → e.Valid memory

theorem valid_empty : Valid memory {} := by
  intro name e h
  rw [NameTable.get?_empty] at h
  cases h

theorem Valid.erase (h : cache.Valid memory) {cache' : PlanCache} {name : String}
    (hentries : cache'.entries = cache.entries.erase name) : cache'.Valid memory := by
  intro other e he
  rw [hentries, NameTable.get?_erase] at he
  split at he
  · cases he
  · exact h other e he

/-! ## Look-ups -/

variable {scene : Scene} {catalogs : Shared Catalogs}

/-- **A look-up** finds the fresh entry of the scene and leaves everything as it is, or else finds
nothing and leaves no entry of the scene. -/
theorem lookup_cases (cache : PlanCache) (scene : Scene) (catalogs : Shared Catalogs) :
    (∃ e, cache.entries.get? scene.name = some e ∧ e.isFresh scene catalogs = true ∧
      (cache.lookup scene catalogs).1 = some e.plan ∧
      (cache.lookup scene catalogs).2.entries = cache.entries) ∨
    ((cache.lookup scene catalogs).1 = none ∧
      (cache.lookup scene catalogs).2.entries = cache.entries.erase scene.name) := by
  cases he : cache.entries.get? scene.name with
  | none =>
    refine .inr ⟨by simp [lookup, he], ?_⟩
    have hentries : (cache.lookup scene catalogs).2.entries = cache.entries := by simp [lookup, he]
    rw [hentries, NameTable.erase_of_get?_eq_none he]
  | some e =>
    cases hfresh : e.isFresh scene catalogs with
    | true =>
      exact .inl ⟨e, rfl, hfresh, by simp [lookup, he, hfresh], by simp [lookup, he, hfresh]⟩
    | false => exact .inr ⟨by simp [lookup, he, hfresh], by simp [lookup, he, hfresh]⟩

theorem Valid.lookup (h : cache.Valid memory) : (cache.lookup scene catalogs).2.Valid memory := by
  rcases lookup_cases cache scene catalogs with ⟨_, -, -, -, hentries⟩ | ⟨-, hentries⟩
  · rw [Valid, hentries]
    exact h
  · exact h.erase hentries

/-- **What a look-up finds** serves the scene. -/
theorem lookup_served (h : cache.Valid memory) {p : Shared Plan}
    (hp : (cache.lookup scene catalogs).1 = some p) :
    scene.ServedBy (memory catalogs.allocation) p.value := by
  rcases lookup_cases cache scene catalogs with ⟨e, he, hfresh, hplan, -⟩ | ⟨hplan, -⟩
  · obtain rfl : e.plan = p := Option.some.inj (hplan.symm.trans hp)
    -- a fresh entry is about the allocation asked for and a scene that compares as equal
    obtain ⟨hallocation, hscene⟩ := (Bool.and_eq_true _ _).mp hfresh
    have hvalid : (memory e.catalogs.allocation).compile e.scene = .ok e.plan.value := h _ e he
    rw [eq_of_beq hallocation] at hvalid
    exact ⟨e.scene, .inr hscene, Scene.withoutZeroSigns_eq_of_beq hscene, hvalid⟩
  · rw [hplan] at hp
    cases hp

/-! ## New plans -/

/-- **Storing** a plan of the catalogs that are asked for keeps the cache valid. -/
theorem Valid.store (h : cache.Valid memory) {plan : Plan}
    (hplan : (memory catalogs.allocation).compile scene = .ok plan) :
    (cache.store scene catalogs plan).2.Valid memory := by
  intro name e he
  have hentries : (cache.store scene catalogs plan).2.entries =
      cache.entries.insert scene.name ⟨catalogs, scene, ⟨cache.nextAllocation, plan⟩⟩ := rfl
  rw [hentries, NameTable.get?_insert] at he
  split at he
  · cases he
    exact hplan
  · exact h name e he

theorem Valid.invalidate (h : cache.Valid memory) {name : String} :
    (cache.invalidate name).2.Valid memory := by
  rw [PlanCache.invalidate]
  split
  · exact h.erase rfl
  · exact h

/-- **The cache answers** a scene that it finds no plan for by compiling it, and stores the plan. -/
theorem getOrCompile_cases (cache : PlanCache) (scene : Scene) (catalogs : Shared Catalogs)
    (index : TriggerIndex) :
    (∃ p, (cache.lookup scene catalogs).1 = some p ∧
      cache.getOrCompile scene catalogs index = (.ok p, (cache.lookup scene catalogs).2)) ∨
    (∃ e, scene.compile catalogs.value index = .error e ∧
      cache.getOrCompile scene catalogs index = (.error e, (cache.lookup scene catalogs).2)) ∨
    ∃ plan, scene.compile catalogs.value index = .ok plan ∧
      cache.getOrCompile scene catalogs index =
        ((cache.lookup scene catalogs).2.store scene catalogs plan).map .ok id := by
  rw [getOrCompile]
  -- the cache compiles only what the look-up has not found
  obtain ⟨answer, cache'⟩ := cache.lookup scene catalogs
  cases answer with
  | some p => exact .inl ⟨p, rfl, rfl⟩
  | none =>
    cases scene.compile catalogs.value index with
    | error e => exact .inr (.inl ⟨e, rfl, rfl⟩)
    | ok plan => exact .inr (.inr ⟨plan, rfl, rfl⟩)

section Current

/-! The catalogs asked for are the ones that their allocation holds. -/

variable (hcatalogs : catalogs.value = memory catalogs.allocation)
include hcatalogs

/-- **The cache serves** the scene with every plan it returns. -/
theorem getOrCompile_served (h : cache.Valid memory) {p : Shared Plan}
    (hp : (cache.getOrCompile scene catalogs (.build catalogs.value.items)).1 = .ok p) :
    scene.ServedBy catalogs.value p.value := by
  rcases getOrCompile_cases cache scene catalogs (.build catalogs.value.items) with
    ⟨q, hq, heq⟩ | ⟨e, -, heq⟩ | ⟨plan, hplan, heq⟩
  · rw [heq] at hp
    cases hp
    rw [hcatalogs]
    exact lookup_served h hq
  · rw [heq] at hp
    cases hp
  · rw [heq] at hp
    cases hp
    exact Scene.servedBy_of_compile hplan

/-- **The cache fails** exactly with the error of compiling the scene. -/
theorem getOrCompile_eq_error_iff (h : cache.Valid memory) {e : CompileError} :
    (cache.getOrCompile scene catalogs (.build catalogs.value.items)).1 = .error e ↔
      catalogs.value.compile scene = .error e := by
  cases hanswer : (cache.getOrCompile scene catalogs (.build catalogs.value.items)).1 with
  | ok p =>
    -- a scene with a plan compiles, even if the plan is another scene's
    have hserved := getOrCompile_served hcatalogs h hanswer
    exact ⟨fun he => (nomatch he), fun he => absurd he (hserved.compile_ne_error e)⟩
  | error e' =>
    rcases getOrCompile_cases cache scene catalogs (.build catalogs.value.items) with
      ⟨q, -, heq⟩ | ⟨e₀, he₀, heq⟩ | ⟨plan, -, heq⟩
    · rw [heq] at hanswer
      cases hanswer
    · rw [heq] at hanswer
      cases hanswer
      rw [Catalogs.compile, he₀, Except.error.injEq, Except.error.injEq]
    · rw [heq] at hanswer
      cases hanswer

theorem Valid.getOrCompile (h : cache.Valid memory) :
    (cache.getOrCompile scene catalogs (.build catalogs.value.items)).2.Valid memory := by
  rcases getOrCompile_cases cache scene catalogs (.build catalogs.value.items) with
    ⟨p, -, heq⟩ | ⟨e, -, heq⟩ | ⟨plan, hplan, heq⟩
  · rw [heq]
    exact h.lookup
  · rw [heq]
    exact h.lookup
  · rw [heq]
    refine h.lookup.store ?_
    -- what was compiled against is what the allocation holds
    rw [← hcatalogs]
    exact hplan

end Current

end PlanCache

end RenderPlan
