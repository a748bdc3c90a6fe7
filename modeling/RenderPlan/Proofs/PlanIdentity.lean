import RenderPlan.Proofs.CacheEntries

/-!
# When a library returns the same plan

Asked for the plan of a scene again, a library may return the plan that it returned before, in the
same allocation. It does so exactly when every look-up of the scene since then came upon the same
catalogs and upon a scene that equals the one the plan was compiled from. A look-up that comes upon
anything else drops the plan, also when the call then fails. What is changed and changed back
between look-ups goes unnoticed.

## Main definitions

* `Library.CompiledFrom`: the scene that the plan of an allocation was compiled from
* `Library.Spares`: a call that does not take a cached plan away
* `Library.Undisturbed`: calls that all spare it

## Main results

* `Library.Refines.perform_entry_of_spares`, `Library.Refines.perform_entry_of_not_spares`: what one
  call makes of a cached plan
* `Library.entry_run`: what any calls make of it
* `Library.CompiledFrom.unique`: a plan was compiled from one scene
* `Library.same_plan_iff_undisturbed`: when the same plan is returned
-/

namespace RenderPlan

theorem PlanCache.invariant_le_nextAllocation (n : Nat) :
    Invariant fun cache => n ≤ cache.nextAllocation where
  lookup h scene catalogs := by
    rw [lookup_nextAllocation]
    exact h
  store h _ _ _ := Nat.le_succ_of_le h
  invalidate h name := by
    rw [invalidate]
    split <;> exact h

namespace Library

variable {memory : Memory} {start : Nat} {l : Library} {r : Registry} {name : String}

theorem run_concat (calls : List Operation) (call : Operation) :
    run memory start (calls ++ [call]) = (run memory start calls).perform memory call :=
  List.foldl_concat ..

/-! ## One call -/

/-- **The call spares** a plan of the catalogs and the scene, cached under the name: it does not
remove the scene, and if it looks it up, then with these catalogs and an equal scene. -/
def Spares (l : Library) (name : String) (allocation : Nat) (compiled : Scene)
    (call : Operation) : Prop :=
  call ≠ .removeScene name ∧
    ∀ scene ∈ l.lookedUp call, scene.name = name →
      l.catalogs.allocation = allocation ∧ (compiled == scene) = true

/-- The call has to do with other scenes, or changes what plans are compiled from. -/
def Operation.LeavesAlone (name : String) : Operation → Prop
  | .setScene _ | .replaceCatalogs _ => True
  | .removeScene other | .plan other => other ≠ name
  | .compileAll => False

namespace Refines

variable {call : Operation} {e : PlanCache.Entry}

/-- An entry that a call leaves was there before, or holds a new plan of the current scene. -/
theorem perform_entry_cases (h : l.Refines memory r)
    (hentry : (l.perform memory call).cache.entries.get? name = some e) :
    l.cache.entries.get? name = some e ∨
      l.cache.nextAllocation ≤ e.plan.allocation ∧ l.scenes.get? name = some e.scene := by
  rcases h.perform_cases call name with
    ⟨-, hnone⟩ | ⟨-, -, hsame⟩ | ⟨-, scene, hscene, rfl, hfresh | ⟨-, p, hnew, hstored⟩⟩
  · cases hnone.symm.trans hentry
  · exact .inl (hsame.symm.trans hentry)
  · exact .inl (PlanCache.fresh?_eq_some_iff.mp (hfresh.symm.trans hentry)).1
  · cases hstored.symm.trans hentry
    exact .inr ⟨hnew, h.registered_of_mem_lookedUp hscene⟩

/-- **A call that spares** a plan leaves its entry. -/
theorem perform_entry_of_spares (h : l.Refines memory r)
    (hentry : l.cache.entries.get? name = some e)
    (hspares : l.Spares name e.catalogs.allocation e.scene call) :
    (l.perform memory call).cache.entries.get? name = some e := by
  rcases h.perform_cases call name with
    ⟨hremove, -⟩ | ⟨-, -, hsame⟩ | ⟨-, scene, hscene, rfl, hrenews⟩
  · exact absurd hremove hspares.1
  · exact hsame.trans hentry
  · obtain ⟨hallocation, hequal⟩ := hspares.2 scene hscene rfl
    have hfresh : l.cache.fresh? l.catalogs scene = some e := by
      refine PlanCache.fresh?_eq_some_iff.mpr ⟨hentry, (Bool.and_eq_true _ _).mpr ⟨?_, hequal⟩⟩
      exact beq_iff_eq.mpr hallocation.symm
    rcases hrenews with hkept | ⟨hnone, -⟩
    · exact hkept.trans hfresh
    · cases hnone.symm.trans hfresh

/-- **Any other call** leaves no entry under the name, or that of a new plan. -/
theorem perform_entry_of_not_spares (h : l.Refines memory r)
    (hentry : l.cache.entries.get? name = some e)
    (hspares : ¬l.Spares name e.catalogs.allocation e.scene call) {e' : PlanCache.Entry}
    (hentry' : (l.perform memory call).cache.entries.get? name = some e') :
    l.cache.nextAllocation ≤ e'.plan.allocation := by
  rcases h.perform_cases call name with
    ⟨-, hnone⟩ | ⟨hremove, hlooked, -⟩ |
      ⟨hremove, scene, hscene, rfl, hkept | ⟨-, p, hnew, hstored⟩⟩
  · cases hnone.symm.trans hentry'
  · exact absurd ⟨hremove, fun scene hscene hname => absurd hname (hlooked scene hscene)⟩ hspares
  · -- an entry kept is fresh for the scene looked up, and no other scene has its name
    obtain ⟨hsame, hfresh⟩ := PlanCache.fresh?_eq_some_iff.mp (hkept.symm.trans hentry')
    cases hentry.symm.trans hsame
    obtain ⟨hallocation, hequal⟩ := (Bool.and_eq_true _ _).mp hfresh
    refine absurd ⟨hremove, fun other hother hname => ?_⟩ hspares
    have hregistered := h.registered_of_mem_lookedUp hother
    rw [hname, h.registered_of_mem_lookedUp hscene] at hregistered
    cases hregistered
    exact ⟨(eq_of_beq hallocation).symm, hequal⟩
  · cases hstored.symm.trans hentry'
    exact hnew

end Refines

/-! ## Calls in turn -/

theorem run_allocated (memory : Memory) (start : Nat) (calls : List Operation) :
    (run memory start calls).cache.Allocated :=
  run_invariant PlanCache.invariant_allocated PlanCache.allocated_empty memory start calls

/-- One of the calls compiled the plan of the allocation, when the scene was registered under the
name. -/
def CompiledFrom (memory : Memory) (start : Nat) (calls : List Operation) (name : String)
    (allocation : Nat) (scene : Scene) : Prop :=
  ∃ earlier call later, calls = earlier ++ call :: later ∧
    (run memory start earlier).cache.nextAllocation ≤ allocation ∧
    allocation < (run memory start (earlier ++ [call])).cache.nextAllocation ∧
    (run memory start earlier).scenes.get? name = some scene

/-- **The calls**, made in turn after those before them, all spare the plan. -/
def Undisturbed (memory : Memory) (start : Nat) (before : List Operation) (name : String)
    (allocation : Nat) (compiled : Scene) (calls : List Operation) : Prop :=
  ∀ earlier call later, calls = earlier ++ call :: later →
    (run memory start (before ++ earlier)).Spares name allocation compiled call

section Runs

variable {before calls : List Operation} {allocation : Nat} {compiled : Scene} {call : Operation}

theorem undisturbed_nil : Undisturbed memory start before name allocation compiled [] :=
  fun _ _ _ h => by simp at h

theorem undisturbed_concat_iff :
    Undisturbed memory start before name allocation compiled (calls ++ [call]) ↔
      Undisturbed memory start before name allocation compiled calls ∧
        (run memory start (before ++ calls)).Spares name allocation compiled call :=
  forall_place_concat_iff

theorem run_nextAllocation_le (before calls : List Operation) :
    (run memory start before).cache.nextAllocation ≤
      (run memory start (before ++ calls)).cache.nextAllocation := by
  induction calls using List.reverseRecOn with
  | nil => exact Nat.le_of_eq (by rw [List.append_nil])
  | append_singleton calls call ih =>
    rw [← List.append_assoc, run_concat]
    exact perform_invariant (PlanCache.invariant_le_nextAllocation _) memory ih call

/-- **What becomes of an entry**: it stays while nothing disturbs it, and once something has, no
entry under the name is of its plan. -/
theorem entry_run {e : PlanCache.Entry}
    (hentry : (run memory start before).cache.entries.get? name = some e)
    (calls : List Operation) :
    let after := (run memory start (before ++ calls)).cache.entries.get? name
    let undisturbed :=
      Undisturbed memory start before name e.catalogs.allocation e.scene calls
    undisturbed ∧ after = some e ∨
      ¬undisturbed ∧ ∀ e', after = some e' → e'.plan.allocation ≠ e.plan.allocation := by
  induction calls using List.reverseRecOn with
  | nil =>
    rw [List.append_nil]
    exact .inl ⟨undisturbed_nil, hentry⟩
  | append_singleton calls call ih =>
    have h := run_refines memory start (before ++ calls)
    -- whatever is compiled from here on is allocated after the plan of the entry
    have hold : e.plan.allocation < (run memory start (before ++ calls)).cache.nextAllocation :=
      Nat.lt_of_lt_of_le (run_allocated memory start before name e hentry)
        (run_nextAllocation_le before calls)
    rw [← List.append_assoc, run_concat, undisturbed_concat_iff]
    rcases ih with ⟨hcalls, hsame⟩ | ⟨hcalls, hother⟩
    · -- the entry is still there, and it is for this call to spare it or not
      by_cases hspares : (run memory start (before ++ calls)).Spares name e.catalogs.allocation
          e.scene call
      · exact .inl ⟨⟨hcalls, hspares⟩, h.perform_entry_of_spares hsame hspares⟩
      · refine .inr ⟨fun hboth => hspares hboth.2, fun e' hentry' => ?_⟩
        exact Nat.ne_of_gt
          (Nat.lt_of_lt_of_le hold (h.perform_entry_of_not_spares hsame hspares hentry'))
    · -- once the plan is gone from the cache nothing brings it back
      refine .inr ⟨fun hboth => hcalls hboth.1, fun e' hentry' => ?_⟩
      rcases h.perform_entry_cases hentry' with hbefore | ⟨hnew, -⟩
      · exact hother e' hbefore
      · exact Nat.ne_of_gt (Nat.lt_of_lt_of_le hold hnew)

/-! ## What a plan was compiled from -/

theorem CompiledFrom.concat {scene : Scene}
    (h : CompiledFrom memory start calls name allocation scene) (call : Operation) :
    CompiledFrom memory start (calls ++ [call]) name allocation scene := by
  obtain ⟨earlier, other, later, rfl, hfrom⟩ := h
  exact ⟨earlier, other, later ++ [call], by simp, hfrom⟩

/-- **A cached plan** was compiled from the scene of its entry. -/
theorem compiledFrom_of_entry {e : PlanCache.Entry}
    (hentry : (run memory start calls).cache.entries.get? name = some e) :
    CompiledFrom memory start calls name e.plan.allocation e.scene := by
  induction calls using List.reverseRecOn with
  | nil => cases (NameTable.get?_empty name).symm.trans hentry
  | append_singleton calls call ih =>
    have hallocated := run_allocated memory start (calls ++ [call]) name e hentry
    rw [run_concat] at hentry
    rcases (run_refines memory start calls).perform_entry_cases hentry with hbefore | ⟨hnew, hscene⟩
    · exact (ih hbefore).concat call
    · exact ⟨calls, call, [], rfl, hnew, hallocated, hscene⟩

/-- **A plan was compiled from one scene**: its allocation came with one of the calls. -/
theorem CompiledFrom.unique {s t : Scene}
    (hs : CompiledFrom memory start calls name allocation s)
    (ht : CompiledFrom memory start calls name allocation t) : s = t := by
  obtain ⟨earlier, call, later, rfl, hnew, hold, hscene⟩ := hs
  obtain ⟨earlier', call', later', heq, hnew', hold', hscene'⟩ := ht
  -- of two different calls one is made before the other, and the allocation is given once
  have himpossible {e e' : List Operation} {c : Operation} (hstart : e ++ [c] <+: e')
      (hold : allocation < (run memory start (e ++ [c])).cache.nextAllocation)
      (hnew : (run memory start e').cache.nextAllocation ≤ allocation) : False := by
    obtain ⟨rest, rfl⟩ := hstart
    exact Nat.not_lt.mpr (Nat.le_trans (run_nextAllocation_le _ rest) hnew) hold
  have hstart : earlier ++ [call] <+: earlier ++ call :: later := ⟨later, by simp⟩
  have hstart' : earlier' ++ [call'] <+: earlier ++ call :: later := ⟨later', by simp [heq]⟩
  rcases Nat.lt_trichotomy earlier.length earlier'.length with hlt | hsame | hgt
  · refine (himpossible (List.prefix_of_prefix_length_le hstart ?_ ?_) hold hnew').elim
    · exact (List.prefix_append ..).trans hstart'
    · rw [List.length_append]
      exact hlt
  · obtain ⟨rfl, -⟩ := List.append_inj heq hsame
    exact Option.some.inj (hscene.symm.trans hscene')
  · refine (himpossible (List.prefix_of_prefix_length_le hstart' ?_ ?_) hold' hnew).elim
    · exact (List.prefix_append ..).trans hstart
    · rw [List.length_append]
      exact hgt

end Runs

/-! ## The same plan -/

/-- **A successful call** leaves the plan that it returns in the entry of the scene, which is one
of the current catalogs. -/
theorem entry_of_plan {calls : List Operation} {p : Shared Plan}
    (hp : ((run memory start calls).plan name).1 = .ok p) :
    ∃ e, (run memory start (calls ++ [.plan name])).cache.entries.get? name = some e ∧
      e.plan = p ∧ e.catalogs.allocation = (run memory start calls).catalogs.allocation := by
  have h := run_refines memory start calls
  rw [run_concat]
  cases hscene : (run memory start calls).scenes.get? name with
  | none =>
    rw [Library.plan, hscene] at hp
    cases hp
  | some scene =>
    obtain ⟨hrenews, hanswer⟩ := h.plan_renews hscene
    obtain ⟨e, hentry, rfl⟩ := Option.map_eq_some_iff.mp (hanswer p hp)
    rw [hentry] at hrenews
    exact ⟨e, hentry, rfl, hrenews.allocation_eq⟩

theorem Operation.LeavesAlone.not_lookedUp (h : l.Refines memory r) {call : Operation}
    (halone : call.LeavesAlone name) : ∀ scene ∈ l.lookedUp call, scene.name ≠ name := by
  intro scene hscene
  cases call with
  | plan other =>
    rw [h.named other scene (mem_lookedUp_plan.mp hscene)]
    exact halone
  | compileAll => cases halone
  | setScene _ => cases hscene
  | removeScene _ => cases hscene
  | replaceCatalogs _ => cases hscene

/-- **Calls that leave a scene alone** leave its entry as it is. -/
theorem entry_of_leavesAlone (before quiet : List Operation)
    (hquiet : ∀ call ∈ quiet, call.LeavesAlone name) :
    (run memory start (before ++ quiet)).cache.entries.get? name =
      (run memory start before).cache.entries.get? name := by
  induction quiet using List.reverseRecOn with
  | nil => rw [List.append_nil]
  | append_singleton quiet call ih =>
    have hcall := hquiet call (by simp)
    have h := run_refines memory start (before ++ quiet)
    rw [← ih fun other hother => hquiet other (List.mem_append_left _ hother),
      ← List.append_assoc, run_concat]
    refine h.perform_entry_of_not_lookedUp ?_ (hcall.not_lookedUp h)
    rintro rfl
    exact hcall rfl

/-- **A scene that holds NaN** is never given a cached plan. -/
theorem Refines.not_cached_of_holdsNaN (h : l.Refines memory r) (hallocated : l.cache.Allocated)
    {scene : Scene} (hscene : l.scenes.get? name = some scene) (hnan : scene.holdsNaN = true)
    {p : Shared Plan} (hp : (l.plan name).1 = .ok p ∨
      ∃ plans, l.compileAll.1 = .ok plans ∧ plans.get? name = some p)
    {other : String} {e : PlanCache.Entry} (hentry : l.cache.entries.get? other = some e) :
    e.plan.allocation ≠ p.allocation := by
  obtain ⟨left, hrenews, hplan⟩ : ∃ left, l.cache.Renews l.catalogs scene left ∧
      left.map PlanCache.Entry.plan = some p := by
    rcases hp with hp | ⟨plans, hplans, hp⟩
    · obtain ⟨hrenews, hanswer⟩ := h.plan_renews hscene
      exact ⟨_, hrenews, hanswer p hp⟩
    · obtain rfl : scene.name = name := h.named name scene hscene
      have hmem := h.mem_values_iff_registered.mpr hscene
      obtain ⟨hrenews, hanswer⟩ := h.compileAll_renews hmem
      exact ⟨_, hrenews, (hanswer plans hplans).symm.trans hp⟩
  rcases hrenews with rfl | ⟨-, q, hnew, rfl⟩
  · -- a plan given without compiling would be that of a fresh entry
    rw [PlanCache.fresh?_of_holdsNaN hnan] at hplan
    cases hplan
  · cases hplan
    exact Nat.ne_of_lt (Nat.lt_of_lt_of_le (hallocated other e hentry) hnew)

/-- **When the same plan is returned.** Of two calls for the plan of one scene that both succeed,
the second returns the plan that the first returned exactly when the calls after the first, the
second included, all spare it: none removes the scene, and each that looks it up, whether it
succeeds or fails, does so with the catalogs of the first call and with a scene that equals the one
the plan was compiled from. Calls about other scenes, and changes of catalogs and scenes that no
look-up comes upon, evict nothing. For a scene that holds NaN no cached plan is ever returned. -/
theorem same_plan_iff_undisturbed (memory : Memory) (start : Nat) (name : String) :
    (∀ before between p q, ((run memory start before).plan name).1 = .ok p →
      ((run memory start (before ++ [.plan name] ++ between)).plan name).1 = .ok q →
      ∃ compiled,
        (∀ scene, CompiledFrom memory start (before ++ [.plan name]) name p.allocation scene ↔
          scene = compiled) ∧
        (run memory start before).catalogs.value.compile compiled = .ok p.value ∧
        (q.allocation = p.allocation ↔ Undisturbed memory start (before ++ [.plan name]) name
          (run memory start before).catalogs.allocation compiled (between ++ [.plan name])) ∧
        (q.allocation = p.allocation → q = p)) ∧
    (∀ before quiet, (∀ call ∈ quiet, call.LeavesAlone name) →
      (run memory start (before ++ quiet)).cache.entries.get? name =
        (run memory start before).cache.entries.get? name) ∧
    ∀ calls scene p, (run memory start calls).scenes.get? name = some scene →
      scene.holdsNaN = true →
      (((run memory start calls).plan name).1 = .ok p ∨
        ∃ plans, (run memory start calls).compileAll.1 = .ok plans ∧ plans.get? name = some p) →
      ∀ other e, (run memory start calls).cache.entries.get? other = some e →
        e.plan.allocation ≠ p.allocation := by
  refine ⟨fun before between p q hp hq => ?_, entry_of_leavesAlone, ?_⟩
  · obtain ⟨e, hentry, rfl, hallocation⟩ := entry_of_plan hp
    obtain ⟨e', hentry', rfl, -⟩ := entry_of_plan hq
    rw [List.append_assoc] at hentry'
    have hvalid : (memory e.catalogs.allocation).compile e.scene = .ok e.plan.value :=
      (run_refines memory start _).cache name e hentry
    rw [hallocation, ← (run_refines memory start before).current] at hvalid
    have hfrom := compiledFrom_of_entry hentry
    refine ⟨e.scene, fun scene => ⟨fun h => h.unique hfrom, fun h => h ▸ hfrom⟩, hvalid, ?_⟩
    rw [← hallocation]
    rcases entry_run hentry (between ++ [.plan name]) with ⟨hcalls, hsame⟩ | ⟨hcalls, hother⟩
    · cases hsame.symm.trans hentry'
      exact ⟨⟨fun _ => hcalls, fun _ => rfl⟩, fun _ => rfl⟩
    · have hne := hother e' hentry'
      exact ⟨⟨fun h => absurd h hne, fun h => absurd h hcalls⟩, fun h => absurd h hne⟩
  · intro calls scene p hscene hnan hp other e hentry
    exact (run_refines memory start calls).not_cached_of_holdsNaN (run_allocated memory start calls)
      hscene hnan hp hentry

/-- Catalogs and a scene changed and changed back, with no look-up of the scene in between. -/
def unobservedChanges : List Operation :=
  [.replaceCatalogs 1, .setScene { name := "warm", render := ["missing"] }, .plan "cold",
    .replaceCatalogs 0, .setScene { name := "warm" }]

/-- Catalogs changed and changed back, with an attempt at all plans in between, which fails before
the scene is compiled. -/
def observedChanges : List Operation :=
  [.setScene { name := "broken", render := ["missing"] }, .replaceCatalogs 1, .compileAll,
    .replaceCatalogs 0]

/-- A scene is asked for, and then a scene that holds NaN. -/
def firstCalls : List Operation :=
  [.setScene nanArcs, .plan "arcs", .setScene { name := "warm" }]

/-- The same plan is returned after the former changes and another one after the latter, and the
scene that holds NaN is given a plan that is not cached. -/
theorem same_plan_unobservedChanges :
    let library := run (fun _ => {}) 0
    let asked := firstCalls ++ [.plan "warm"]
    (∃ p q r compiled, ((library firstCalls).plan "warm").1 = .ok p ∧
      ((library (asked ++ unobservedChanges)).plan "warm").1 = .ok q ∧
      ((library (asked ++ observedChanges)).plan "warm").1 = .ok r ∧
      q = p ∧ r.allocation ≠ p.allocation ∧
      Undisturbed (fun _ => {}) 0 asked "warm" 0 compiled (unobservedChanges ++ [.plan "warm"]) ∧
      ¬Undisturbed (fun _ => {}) 0 asked "warm" 0 compiled (observedChanges ++ [.plan "warm"])) ∧
    (library (asked ++ unobservedChanges)).cache.entries.get? "warm" =
      (library asked).cache.entries.get? "warm" ∧
    ∃ e p, (library firstCalls).cache.entries.get? "arcs" = some e ∧
      ((library firstCalls).plan "arcs").1 = .ok p ∧ e.plan.allocation ≠ p.allocation := by
  intro library asked
  obtain ⟨p, hp⟩ : ∃ p, ((library firstCalls).plan "warm").1 = .ok p := ⟨_, rfl⟩
  obtain ⟨q, hq⟩ : ∃ q, ((library (asked ++ unobservedChanges)).plan "warm").1 = .ok q := ⟨_, rfl⟩
  obtain ⟨r, hr⟩ : ∃ r, ((library (asked ++ observedChanges)).plan "warm").1 = .ok r := ⟨_, rfl⟩
  obtain ⟨a, ha⟩ : ∃ a, ((library firstCalls).plan "arcs").1 = .ok a := ⟨_, rfl⟩
  obtain ⟨e, he⟩ : ∃ e, (library firstCalls).cache.entries.get? "arcs" = some e := ⟨_, rfl⟩
  have hallocations : (((library firstCalls).plan "warm").1.toOption.map Shared.allocation,
      ((library (asked ++ unobservedChanges)).plan "warm").1.toOption.map Shared.allocation,
      ((library (asked ++ observedChanges)).plan "warm").1.toOption.map Shared.allocation) =
      (some 1, some 1, some 3) := by
    decide
  rw [hp, hq, hr] at hallocations
  simp only [Except.toOption, Option.map_some, Prod.mk.injEq, Option.some.injEq] at hallocations
  obtain ⟨hpa, hqa, hra⟩ := hallocations
  obtain ⟨hsame, hquiet, -⟩ := same_plan_iff_undisturbed (fun _ => {}) 0 "warm"
  obtain ⟨compiled, hfrom, -, hunobserved, hshared⟩ := hsame _ _ p q hp hq
  obtain ⟨compiled', hfrom', -, hobserved, -⟩ := hsame _ _ p r hp hr
  -- both are about the plan of the first call, and so about one scene
  obtain rfl : compiled' = compiled := (hfrom compiled').mp ((hfrom' compiled').mpr rfl)
  have hqp : q.allocation = p.allocation := hqa.trans hpa.symm
  have hrp : r.allocation ≠ p.allocation := by
    rw [hra, hpa]
    decide
  refine ⟨⟨p, q, r, compiled', hp, hq, hr, hshared hqp, hrp, hunobserved.mp hqp,
    fun h => hrp (hobserved.mpr h)⟩, hquiet asked unobservedChanges ?_, e, a, he, ha, ?_⟩
  · simp [unobservedChanges, Operation.LeavesAlone]
  · exact (same_plan_iff_undisturbed (fun _ => {}) 0 "arcs").2.2 firstCalls nanArcs a rfl
      (by decide) (.inl ha) "arcs" e he

end Library

end RenderPlan
