import RenderPlan.Proofs.PlanResources
import RenderPlan.Proofs.TriggerLists

/-!
# The order of the render list

A plan is accumulated item by item, in the order of the render list. Order and repetition show in
its draws and in the lists of its triggers and nowhere else: every other part is determined by which
names the render list holds, because all that is noted of a name comes from one and the same set of
catalogs.

## Main definitions

* `Plan.SameResources`: two plans agree on the tables and sets that are filled item by item

## Main results

* `Plan.sameResources_of_same_names`: the names of the render list determine the resources
* `Plan.same_up_to_render_order`: what changes in a plan when the render list is reordered or
  repeats names
-/

namespace RenderPlan

/-! ## Parts of a plan that are determined by what they hold -/

theorem IndexLookups.ext_contains {l m : IndexLookups}
    (h : ∀ lookup, l.contains lookup = true ↔ m.contains lookup = true) : l = m := by
  have hvertex : l.vertex = m.vertex := Bool.eq_iff_iff.mpr (h .vertex)
  have hedge : l.edge = m.edge := Bool.eq_iff_iff.mpr (h .edge)
  cases l
  cases m
  cases hvertex
  cases hedge
  rfl

/-- Two tables of models with the same models and attributes are equal. -/
theorem models_ext {models models' : NameTable Model} (hkeys : models.keys = models'.keys)
    (h : ∀ ref, attributeOf? models ref = attributeOf? models' ref) : models = models' := by
  apply NameTable.ext_get?
  intro model
  -- a model without attributes shows in the names alone
  have hkey : (∃ attributes, models.get? model = some attributes) ↔
      ∃ attributes, models'.get? model = some attributes := by
    rw [← NameTable.mem_keys_iff, ← NameTable.mem_keys_iff, hkeys]
  cases hmodel : models.get? model with
  | none =>
    cases hmodel' : models'.get? model with
    | none => rfl
    | some attributes' =>
      obtain ⟨attributes, hattributes⟩ := hkey.mpr ⟨attributes', hmodel'⟩
      rw [hmodel] at hattributes
      cases hattributes
  | some attributes =>
    obtain ⟨attributes', hmodel'⟩ := hkey.mp ⟨attributes, hmodel⟩
    rw [hmodel', Option.some_inj]
    refine NameTable.ext_get? fun name => ?_
    have hname := h ⟨model, name⟩
    rwa [attributeOf?, attributeOf?, hmodel, hmodel'] at hname

namespace Scene

variable {s s' : Scene} {c : Catalogs}

/-- Scenes that list the same names draw the same items. -/
theorem draws_congr (hnames : ∀ name, name ∈ s'.render ↔ name ∈ s.render) (item : Item) :
    s'.Draws c item ↔ s.Draws c item :=
  exists_congr fun name => and_congr_left fun _ => hnames name

section Uses

variable (hdraws : ∀ item, s'.Draws c item ↔ s.Draws c item)
include hdraws

theorem refersTo_congr (ref : AttributeRef) : s'.RefersTo c ref ↔ s.RefersTo c ref :=
  exists_congr fun item => and_congr_left fun _ => hdraws item

theorem usesTexture_congr (name : String) : s'.UsesTexture c name ↔ s.UsesTexture c name :=
  exists_congr fun item => and_congr_left fun _ => hdraws item

theorem drawsInto_congr (name : String) : s'.DrawsInto c name ↔ s.DrawsInto c name :=
  exists_congr fun item => and_congr_left fun _ => hdraws item

theorem readsBack_congr (name : String) : s'.ReadsBack c name ↔ s.ReadsBack c name :=
  exists_congr fun item => and_congr_left fun _ => hdraws item

end Uses

end Scene

namespace Plan

variable {s s' : Scene} {c : Catalogs} {index : TriggerIndex} {p p' : Plan}

/-- What a draw is composed of does not depend on the render list. -/
theorem Draw.composedFrom_withRender {d : Draw} {name : String} {render : List String} :
    d.ComposedFrom { s with render } c name ↔ d.ComposedFrom s c name :=
  ⟨fun h => ⟨h.name, h.item, h.glState⟩, fun h => ⟨h.name, h.item, h.glState⟩⟩

/-! ## Resources -/

/-- **Two plans have the same resources**: they agree on every table and set that is filled item by
item. -/
structure SameResources (p q : Plan) : Prop where
  programs : p.programs = q.programs
  textures : p.textures = q.textures
  models : p.models = q.models
  uniforms : p.uniforms = q.uniforms
  indexLookups : p.indexLookups = q.indexLookups
  targets : p.targets = q.targets
  requiredModels : p.requiredModels = q.requiredModels
  serverBuffers : p.serverBuffers = q.serverBuffers
  serverTextures : p.serverTextures = q.serverTextures

/-- **The names of the render list determine the resources** of a plan, in whatever order and how
often they are listed. -/
theorem sameResources_of_same_names (h : s.compile c index = .ok p)
    (h' : s'.compile c index = .ok p') (hnames : ∀ name, name ∈ s'.render ↔ name ∈ s.render) :
    p'.SameResources p := by
  -- each part is described by the items that the scene draws, and these are the same
  have hdraws (item : Item) : s'.Draws c item ↔ s.Draws c item := Scene.draws_congr hnames item
  have hrefers := Scene.refersTo_congr hdraws
  have huses := Scene.usesTexture_congr hdraws
  have hrequired : p'.requiredModels = p.requiredModels := NameSet.ext_mem fun model => by
    simp only [mem_requiredModels_of_compile h', mem_requiredModels_of_compile h, hrefers]
  exact {
    programs := NameTable.ext_get? fun name => Option.ext fun program => by
      simp only [program_of_compile h', program_of_compile h, hdraws]
    textures := NameTable.ext_get? fun name => Option.ext fun texture => by
      rw [texture_of_compile h', texture_of_compile h, huses]
    models := by
      refine models_ext ?_ fun ref => Option.ext fun buffer => ?_
      · rw [keys_models_of_compile h', keys_models_of_compile h, hrequired]
      · rw [attributeOf?_of_compile h', attributeOf?_of_compile h, hrefers]
    uniforms := NameTable.ext_get? fun name => Option.ext fun uniforms => by
      rw [uniforms_of_compile h', uniforms_of_compile h, hnames]
    indexLookups := IndexLookups.ext_contains fun lookup => by
      simp only [contains_indexLookups_of_compile h', contains_indexLookups_of_compile h, hrefers]
    targets := NameTable.ext_get? fun name => Option.ext fun target => by
      rw [target_of_compile h', target_of_compile h, Scene.drawsInto_congr hdraws,
        Scene.readsBack_congr hdraws]
    requiredModels := hrequired
    serverBuffers := NameSet.ext_mem fun model => by
      simp only [mem_serverBuffers_of_compile h', mem_serverBuffers_of_compile h, hrefers]
    serverTextures := NameSet.ext_mem fun name => by
      rw [mem_serverTextures_of_compile h', mem_serverTextures_of_compile h, huses] }

/-! ## Triggers -/

/-- **The names of the render list determine the list of a trigger** up to its order. -/
theorem itemsOnTrigger_perm (h : s.compile c index = .ok p) (h' : s'.compile c index = .ok p')
    (hnames : ∀ name, name ∈ s'.render ↔ name ∈ s.render) (trigger : String) :
    (p'.itemsOnTrigger trigger).Perm (p.itemsOnTrigger trigger) := by
  rw [itemsOnTrigger_of_compile h', itemsOnTrigger_of_compile h]
  -- both lists hold the same names, each once
  refine (List.perm_ext_iff_of_nodup (nodup_firstOccurrences _) (nodup_firstOccurrences _)).mpr
    fun name => ?_
  rw [mem_firstOccurrences, mem_firstOccurrences, List.mem_filter, List.mem_filter, hnames]

/-! ## Render lists with the same names -/

/-- **The order of the render list and its repetitions** show in the draws and in the lists of the
triggers, and nowhere else. Of two scenes that differ in their render lists only, which hold the
same names, both compile or neither does. Their plans agree in every part but the draws and the
triggers. They have the same triggers, whose lists are permutations of each other, and the same
draws apart from order and repetition: one for each name. -/
theorem same_up_to_render_order (s : Scene) (c : Catalogs) (index : TriggerIndex)
    (render : List String) (hnames : ∀ name, name ∈ render ↔ name ∈ s.render) :
    ((∃ p', { s with render }.compile c index = .ok p') ↔ ∃ p, s.compile c index = .ok p) ∧
    ∀ p p', s.compile c index = .ok p → { s with render }.compile c index = .ok p' →
      p' = { p with draws := p'.draws, triggers := p'.triggers } ∧
      (p'.triggers.keys = p.triggers.keys ∧
        ∀ trigger, (p'.itemsOnTrigger trigger).Perm (p.itemsOnTrigger trigger)) ∧
      (∀ d, d ∈ p'.draws ↔ d ∈ p.draws) ∧
      ∀ d ∈ p.draws, ∀ d' ∈ p'.draws, d.name = d'.name → d = d' := by
  refine ⟨?_, fun p p' h h' => ⟨?_, ⟨?_, itemsOnTrigger_perm h h' hnames⟩, fun d => ?_, ?_⟩⟩
  · rw [Scene.exists_compile_eq_ok_iff, Scene.exists_compile_eq_ok_iff]
    exact forall_congr' fun name => imp_congr_left (hnames name)
  · obtain ⟨hscene, hcamera, hglState, hparameters⟩ := header_of_compile h
    obtain ⟨hscene', hcamera', hglState', hparameters'⟩ := header_of_compile h'
    have hresources := sameResources_of_same_names h h' hnames
    rw [Plan.mk.injEq]
    exact ⟨hscene'.trans hscene.symm, hcamera'.trans hcamera.symm, hglState'.trans hglState.symm,
      hparameters'.trans hparameters.symm, rfl, hresources.programs, hresources.textures,
      hresources.models, hresources.uniforms, rfl, hresources.indexLookups, hresources.targets,
      hresources.requiredModels, hresources.serverBuffers, hresources.serverTextures⟩
  · rw [triggers_of_compile h', triggers_of_compile h, NameTable.keys_mapWithName,
      NameTable.keys_mapWithName]
  · simp only [mem_draws_of_compile h', mem_draws_of_compile h, Draw.composedFrom_withRender,
      hnames]
  · intro d hd d' hd' hname
    obtain ⟨listed, -, hcomposed⟩ := (mem_draws_of_compile h).mp hd
    obtain ⟨listed', -, hcomposed'⟩ := (mem_draws_of_compile h').mp hd'
    obtain rfl : listed = listed' := hcomposed.name.symm.trans (hname.trans hcomposed'.name)
    exact hcomposed.unique (Draw.composedFrom_withRender.mp hcomposed')

/-- Without its repetition and in the other order, the scene of two items has the same resources.
The list of the trigger that redraws both is reversed. -/
theorem same_up_to_render_order_pick :
    (∀ name, name ∈ ["dots", "hits"] ↔ name ∈ pickScene.render) ∧
    ∃ p', { pickScene with render := ["dots", "hits"] }.compile pickCatalogs
        (.build pickCatalogs.items) = .ok p' ∧
      p' = { pickPlan with draws := p'.draws, triggers := p'.triggers } ∧
      (pickPlan.itemsOnTrigger "render" = ["hits", "dots"] ∧
        p'.itemsOnTrigger "render" = ["dots", "hits"]) ∧
      pickPlan.draws.length = 3 ∧ p'.draws.length = 2 := by
  have hnames : ∀ name, name ∈ ["dots", "hits"] ↔ name ∈ pickScene.render := by
    intro name
    rw [show pickScene.render = ["hits", "dots", "hits"] from rfl]
    simp only [List.mem_cons, List.not_mem_nil, or_false]
    tauto
  have hcompile : pickScene.compile pickCatalogs (.build pickCatalogs.items) = .ok pickPlan := rfl
  obtain ⟨-, hplans⟩ :=
    same_up_to_render_order pickScene pickCatalogs (.build pickCatalogs.items) _ hnames
  refine ⟨hnames, _, rfl, (hplans _ _ hcompile rfl).1, ⟨by decide, by decide⟩, rfl, rfl⟩

end Plan

end RenderPlan
