import RenderPlan.Proofs.PlanContents

/-!
# Compiling is all or nothing

A scene compiles when every item of its render list resolves, and then its plan draws those items in
their order. Otherwise the error is about the first broken reference: that of the first item that
does not resolve, and of its references the first that leads nowhere.

## Main definitions

* `Plan.Draw.ComposedFrom`: a draw is that of a declared item in a scene
* `Scene.FirstBroken`: the error is about the first broken reference of a scene

## Main results

* `Scene.exists_compile_eq_ok_iff`, `Scene.compile_eq_error_iff`: when compiling succeeds, and what
  it reports otherwise
* `Plan.header_of_compile`, `Plan.mem_draws_of_compile`: what a plan takes over from the scene, and
  its draws as a set
* `Scene.compile_all_or_nothing`: the outcome of compiling, described by the catalogs alone
-/

namespace RenderPlan

variable {s : Scene} {c : Catalogs} {index : TriggerIndex}

/-- A draw of the scene for a name of its render list: the item declared under the name, with the
scene's GL state and the item's own laid over that. -/
structure Plan.Draw.ComposedFrom (d : Plan.Draw) (s : Scene) (c : Catalogs) (listed : String) :
    Prop where
  name : d.name = listed
  item : c.items.get? listed = some d.item
  glState : ∀ key, d.glState.get? key = (d.item.glState.get? key).or (s.glState.get? key)

namespace Scene

/-- **The first broken reference** of a scene: every item listed before the one complained of
resolves, and the name complained of is the first that this one misses. -/
def FirstBroken (s : Scene) (c : Catalogs) (e : CompileError) : Prop :=
  e.scene = s.name ∧ ∃ before after, s.render = before ++ e.item :: after ∧
    (∀ name ∈ before, c.Resolves name) ∧ c.FirstMissing e.item e.missing

theorem resolveStep_eq_ok_iff {name : String} :
    (∃ r, (c.resolve name).mapError (fun missing => CompileError.mk s.name name missing) = .ok r) ↔
      c.Resolves name := by
  simp only [mapError_eq_ok_iff, Catalogs.exists_resolve_eq_ok_iff]

/-- **Compiling succeeds** when every item of the render list resolves. -/
theorem exists_compile_eq_ok_iff :
    (∃ p, s.compile c index = .ok p) ↔ ∀ name ∈ s.render, c.Resolves name := by
  simp only [compile, map_eq_ok_iff]
  rw [exists_comm]
  simp only [exists_and_left, exists_eq', and_true, resolve, exists_mapM_eq_ok_iff,
    resolveStep_eq_ok_iff]

/-- **Compiling fails** with the first broken reference. -/
theorem compile_eq_error_iff {e : CompileError} :
    s.compile c index = .error e ↔ s.FirstBroken c e := by
  rw [compile, map_eq_error_iff, resolve, mapM_eq_error_iff]
  simp only [resolveStep_eq_ok_iff, mapError_eq_error_iff, Catalogs.resolve_eq_error_iff]
  -- the error names the scene and the item at which the render list broke
  constructor
  · rintro ⟨before, name, after, hrender, hbefore, missing, hmissing, rfl⟩
    exact ⟨rfl, before, after, hrender, hbefore, hmissing⟩
  · rintro ⟨hscene, before, after, hrender, hbefore, hmissing⟩
    refine ⟨before, e.item, after, hrender, hbefore, e.missing, hmissing, ?_⟩
    rw [← hscene]

/-- The plan of a scene has one draw for each place of the render list. -/
theorem draws_of_compile {p : Plan} (h : s.compile c index = .ok p) :
    List.Forall₂ (fun name d => d.ComposedFrom s c name) s.render p.draws := by
  obtain ⟨rs, hrender, hrs, rfl⟩ := compile_eq_ok_iff.mp h
  rw [Plan.draws_ofItems, ← hrender, List.forall₂_map_left_iff, List.forall₂_map_right_iff,
    List.forall₂_same]
  exact fun r hr => ⟨rfl, (hrs r hr).item, fun key => NameTable.get?_overriddenBy ..⟩

end Scene

namespace Plan

variable {p : Plan}

/-- **A compiled plan** takes over the name, the camera, the GL state and the parameters of its
scene. -/
theorem header_of_compile (h : s.compile c index = .ok p) :
    p.scene = s.name ∧ p.camera = s.camera ∧ p.glState = s.glState ∧
      p.parameters = s.parameters := by
  obtain ⟨rs, -, -, rfl⟩ := Scene.compile_eq_ok_iff.mp h
  obtain ⟨hscene, hcamera, hparameters⟩ : (ofItems s index rs).scene = s.name ∧ _ := header_ofItems
  exact ⟨hscene, hcamera, glState_ofItems, hparameters⟩

/-- **The order of the items** in a plan is that of the render list. -/
theorem itemOrder_of_compile (h : s.compile c index = .ok p) : p.itemOrder = s.render := by
  have hnames : List.Forall₂ Eq s.render (p.draws.map Draw.name) := by
    rw [List.forall₂_map_right_iff]
    exact (Scene.draws_of_compile h).imp fun _ _ hcomposed => hcomposed.name.symm
  rw [List.forall₂_eq_eq_eq] at hnames
  exact hnames.symm

/-- There is only one draw of a scene for a name. -/
theorem Draw.ComposedFrom.unique {d d' : Draw} {name : String} (h : d.ComposedFrom s c name)
    (h' : d'.ComposedFrom s c name) : d = d' := by
  have hname : d.name = d'.name := h.name.trans h'.name.symm
  have hitem : d.item = d'.item := Option.some.inj (h.item.symm.trans h'.item)
  have hglState : d.glState = d'.glState := NameTable.ext_get? fun key => by
    rw [h.glState, h'.glState, hitem]
  cases d
  cases d'
  cases hname
  cases hitem
  cases hglState
  rfl

/-- **The draws of a plan**, as a set, are those of the names that the render list holds. -/
theorem mem_draws_of_compile (h : s.compile c index = .ok p) {d : Draw} :
    d ∈ p.draws ↔ ∃ name ∈ s.render, d.ComposedFrom s c name := by
  have hdraws := Scene.draws_of_compile h
  constructor
  · intro hd
    obtain ⟨i, hi, rfl⟩ := List.getElem_of_mem hd
    have hlength : i < s.render.length := by rwa [hdraws.length_eq]
    exact ⟨s.render[i], List.getElem_mem hlength, hdraws.get hlength hi⟩
  · rintro ⟨name, hname, hcomposed⟩
    obtain ⟨i, hi, rfl⟩ := List.getElem_of_mem hname
    have hlength : i < p.draws.length := by rwa [← hdraws.length_eq]
    -- the draw at the place of the name is the only one of that name
    have hunique : d = p.draws[i] := hcomposed.unique (hdraws.get hi hlength)
    rw [hunique]
    exact List.getElem_mem hlength

end Plan

namespace Scene

/-- A missing texture is one that the program has a sampler for. -/
theorem sampler_of_firstBroken {e : CompileError} {texture : String} (h : s.FirstBroken c e)
    (htexture : e.missing = .texture texture) :
    ∃ item program sampler, c.items.get? e.item = some item ∧
      c.programs.get? item.program = some program ∧ sampler ∈ program.samplers ∧
      item.textureBindings.get? sampler = some texture := by
  obtain ⟨-, -, -, -, -, hmissing⟩ := h
  rw [htexture] at hmissing
  cases hmissing with
  | @sample item program sampler _ hitem hprogram hsample =>
    refine ⟨item, program, sampler, hitem, hprogram, ?_, hsample.1⟩
    -- without a sampler nothing would be asked of the texture
    by_contra hsampler
    exact hsample.2.1 fun h => absurd h hsampler

/-- **Compiling is all or nothing.** It succeeds exactly when every item of the render list
resolves, and then draws each in its place; it fails exactly with the first broken reference, which
is never a texture that the program has no sampler for. -/
theorem compile_all_or_nothing (s : Scene) (c : Catalogs) (index : TriggerIndex) :
    ((∃ p, s.compile c index = .ok p) ↔ ∀ name ∈ s.render, c.Resolves name) ∧
    (∀ p, s.compile c index = .ok p →
      List.Forall₂ (fun name d => d.ComposedFrom s c name) s.render p.draws) ∧
    (∀ e, s.compile c index = .error e ↔ s.FirstBroken c e) ∧
    ∀ e texture, s.compile c index = .error e → e.missing = .texture texture →
      ∃ item program sampler, c.items.get? e.item = some item ∧
        c.programs.get? item.program = some program ∧ sampler ∈ program.samplers ∧
        item.textureBindings.get? sampler = some texture := by
  refine ⟨exists_compile_eq_ok_iff, fun p => draws_of_compile, fun e => compile_eq_error_iff, ?_⟩
  intro e texture he htexture
  exact sampler_of_firstBroken (compile_eq_error_iff.mp he) htexture

end Scene

end RenderPlan
