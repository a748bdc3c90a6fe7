import RenderPlan.Frame
import RenderPlan.Proofs.Compilation
import RenderPlan.Proofs.DocumentResolution
import RenderPlan.Proofs.PlanResources

/-!
# Precedence of GL state and uniforms

What a plan says of a GL state function is settled in three steps: an item is laid over its preset
and a scene over its own when the document resolves, and the item is laid over the scene when the
scene compiles. Seen from the document this is one list of four tables, of which the first that has
the function counts. Scenes declare no uniforms, so for these it is a list of two.

## Main definitions

* `NameTable.firstValue?`: the value of a name in the first of several tables that has one

## Main results

* `Document.get?_composedItem_glState`, `Document.get?_composedScene_glState`,
  `Document.get?_composedItem_uniforms`: items and scenes of a resolved document
* `Plan.glStateOf?_of_compile`: items within a plan
* `Document.first_level_counts`: the plans of a resolved document
-/

namespace RenderPlan

namespace NameTable

variable {α : Type}

/-- The value of a name in the first of the tables that has one. -/
def firstValue? (levels : List (NameTable α)) (name : String) : Option α :=
  levels.findSome? fun level => level.get? name

@[simp] theorem firstValue?_nil (name : String) :
    firstValue? ([] : List (NameTable α)) name = none := rfl

@[simp] theorem firstValue?_cons (level : NameTable α) (levels : List (NameTable α))
    (name : String) :
    firstValue? (level :: levels) name = (level.get? name).or (firstValue? levels name) := by
  rw [firstValue?, List.findSome?_cons]
  cases level.get? name <;> rfl

theorem firstValue?_append (levels levels' : List (NameTable α)) (name : String) :
    firstValue? (levels ++ levels') name =
      (firstValue? levels name).or (firstValue? levels' name) :=
  List.findSome?_append

end NameTable

open NameTable (firstValue?)

/-! ## Items and scenes -/

namespace Document

variable (d : Document)

/-- A uniform of an item is the item's own before that of its preset. -/
theorem get?_composedItem_uniforms (entry : ItemEntry) (uniform : String) :
    (d.composedItem entry).uniforms.get? uniform =
      firstValue? [entry.item.uniforms, presetTable d.uniformPresets entry.uniformPreset]
        uniform := by
  simp [composedItem]

/-- GL state of an item is the item's own before that of its preset. -/
theorem get?_composedItem_glState (entry : ItemEntry) (key : String) :
    (d.composedItem entry).glState.get? key =
      firstValue? [entry.item.glState, presetTable d.glPresets entry.glPreset] key := by
  simp [composedItem]

/-- GL state of a scene is the scene's own before that of its preset. -/
theorem get?_composedScene_glState (entry : SceneEntry) (key : String) :
    (d.composedScene entry).glState.get? key =
      firstValue? [entry.scene.glState, presetTable d.glPresets entry.glPreset] key := by
  simp [composedScene]

end Document

/-! ## Plans -/

namespace Plan

variable {s : Scene} {c : Catalogs} {index : TriggerIndex} {p : Plan}

/-- **The GL state of an item** in a plan is the item's before that of the scene, whichever of its
draws is asked. -/
theorem glStateOf?_of_compile (h : s.compile c index = .ok p) {name : String}
    (hname : name ∈ p.itemOrder) :
    ∃ item glState, c.items.get? name = some item ∧ p.glStateOf? name = some glState ∧
      ∀ key, glState.get? key = (item.glState.get? key).or (s.glState.get? key) := by
  obtain ⟨d, hd, rfl⟩ := List.mem_map.mp hname
  obtain ⟨first, hfirst⟩ : ∃ first, p.draw? d.name = some first := by
    rw [← Option.isSome_iff_exists, draw?, List.find?_isSome]
    exact ⟨d, hd, beq_self_eq_true _⟩
  have hsame : first.name = d.name := by simpa using List.find?_some hfirst
  obtain ⟨listed, -, hcomposed⟩ := (mem_draws_of_compile h).mp (List.mem_of_find?_eq_some hfirst)
  obtain rfl : d.name = listed := hsame.symm.trans hcomposed.name
  exact ⟨first.item, first.glState, hcomposed.item, by rw [glStateOf?, hfirst, Option.map_some],
    hcomposed.glState⟩

/-- An item that a plan does not draw has no GL state and no uniforms in it. -/
theorem get?_of_not_mem_itemOrder (h : s.compile c index = .ok p) {name : String}
    (hname : name ∉ p.itemOrder) : p.glStateOf? name = none ∧ p.uniforms.get? name = none := by
  constructor
  · rw [glStateOf?, draw?, Option.map_eq_none_iff, List.find?_eq_none]
    intro d hd hsame
    exact hname (List.mem_map.mpr ⟨d, hd, by simpa using hsame⟩)
  · rw [Option.eq_none_iff_forall_ne_some]
    intro uniforms huniforms
    rw [uniforms_of_compile h, ← itemOrder_of_compile h] at huniforms
    exact hname huniforms.1

end Plan

namespace Document

variable {d : Document} {parts : Parts}

/-- **The first level counts.** The scenes of a resolved document are those that it declares, in
order, with other GL state. When one of them compiles, the GL state of the plan has for every state
function the calls of the first of two tables that has any: the scene's own and that of its preset.
The GL state of an item of the plan has those of the first of four tables: the item's own, that of
its preset, the scene's own and that of the scene's preset. Its uniforms are those of the first of
two tables: the item's own and that of its preset. A new store holds the declared values of these
uniforms. Nothing is said in a plan of items that it does not draw. -/
theorem first_level_counts (h : d.resolve = .ok parts) :
    List.Forall₂ (fun entry scene =>
      scene = { entry.scene with glState := scene.glState } ∧
      ∀ index p, scene.compile parts.catalogs index = .ok p →
        (∀ key, p.glState.get? key =
          firstValue? [entry.scene.glState, presetTable d.glPresets entry.glPreset] key) ∧
        (∀ name ∈ p.itemOrder, ∃ own glState uniforms, d.items.get? name = some own ∧
          p.glStateOf? name = some glState ∧ p.uniforms.get? name = some uniforms ∧
          (∀ key, glState.get? key =
            firstValue? [own.item.glState, presetTable d.glPresets own.glPreset,
              entry.scene.glState, presetTable d.glPresets entry.glPreset] key) ∧
          ∀ uniform, uniforms.get? uniform =
              firstValue? [own.item.uniforms, presetTable d.uniformPresets own.uniformPreset]
                uniform ∧
            p.newStore.shape? name uniform = (uniforms.get? uniform).map Uniform.shape ∧
            p.newStore.values? name uniform = (uniforms.get? uniform).map Uniform.defaults) ∧
        ∀ name ∉ p.itemOrder, p.glStateOf? name = none ∧ p.uniforms.get? name = none ∧
          ∀ uniform, p.newStore.values? name uniform = none)
      d.scenes parts.scenes := by
  obtain ⟨-, rfl⟩ := resolve_eq_ok_iff.mp h
  rw [composed, List.forall₂_map_right_iff, List.forall₂_same]
  intro entry _
  refine ⟨rfl, fun index p hp => ⟨fun key => ?_, fun name hname => ?_, fun name hname => ?_⟩⟩
  · rw [(Plan.header_of_compile hp).2.2.1, get?_composedScene_glState]
  · obtain ⟨item, glState, hitem, hglState, hkeys⟩ := Plan.glStateOf?_of_compile hp hname
    -- the item of the plan is that of an entry of the document
    obtain ⟨own, hown, rfl⟩ := Option.map_eq_some_iff.mp ((NameTable.get?_map ..).symm.trans hitem)
    have huniforms : p.uniforms.get? name = some (d.composedItem own).uniforms :=
      (Plan.uniforms_of_compile hp).mpr
        ⟨by rwa [← Plan.itemOrder_of_compile hp], _, hitem, rfl⟩
    refine ⟨own, glState, _, hown, hglState, huniforms, fun key => ?_, fun uniform => ⟨?_, ?_, ?_⟩⟩
    · rw [hkeys, get?_composedItem_glState, get?_composedScene_glState,
        ← NameTable.firstValue?_append]
      rfl
    · rw [get?_composedItem_uniforms]
    · rw [Plan.newStore, UniformStore.shape?, UniformStore.slot?_ofDefaults, huniforms,
        Option.bind_some, Option.map_map]
      rfl
    · rw [Plan.newStore, UniformStore.values?, UniformStore.slot?_ofDefaults, huniforms,
        Option.bind_some, Option.map_map]
      rfl
  · obtain ⟨hglState, huniforms⟩ := Plan.get?_of_not_mem_itemOrder hp hname
    refine ⟨hglState, huniforms, fun uniform => ?_⟩
    rw [Plan.newStore, UniformStore.values?, UniformStore.slot?_ofDefaults, huniforms]
    rfl

/-- A document of one scene and one item, both laid over presets. The state functions are declared
in all four tables, in three, in two and in one. -/
def layeredDocument : Document where
  programs := NameTable.empty.insert "dots" {}
  uniformPresets := NameTable.empty.insert "plain"
    ((NameTable.empty.insert "fog" ⟨.float2, []⟩).insert "stroke" ⟨.float3, []⟩)
  glPresets := (NameTable.empty.insert "item"
    ((NameTable.empty.insert "cullFace" [.ofSymbols ["BACK"]]).insert
      "depthFunc" [.ofSymbols ["LESS"]])).insert "scene"
    ((((NameTable.empty.insert "cullFace" []).insert "depthFunc" []).insert
      "enable" [.ofSymbols ["BLEND"], .ofSymbols ["DITHER"]]).insert
      "frontFace" [.ofSymbols ["CW"]])
  items := NameTable.empty.insert "dot"
    { uniformPreset := some "plain"
      glPreset := some "item"
      item :=
        { program := "dots"
          primitive := .points
          uniforms := NameTable.empty.insert "stroke" ⟨.float1, []⟩
          glState := NameTable.empty.insert "depthFunc" [.ofSymbols ["ALWAYS"]] } }
  scenes :=
    [{ glPreset := some "scene"
       scene :=
        { name := "main"
          glState := ((NameTable.empty.insert "cullFace" [.ofSymbols ["FRONT"]]).insert
            "depthFunc" [.ofSymbols ["NEVER"]]).insert "enable" [.ofSymbols ["BLEND"]]
          render := ["dot"] } }]

/-- The scene of the document compiles. Of each state function its item makes the calls of the first
table that declares it, and its uniforms are declared likewise. -/
theorem first_level_counts_layered :
    ∃ parts scene p glState uniforms, layeredDocument.resolve = .ok parts ∧
      parts.scenes = [scene] ∧
      scene.compile parts.catalogs (.build parts.catalogs.items) = .ok p ∧
      p.glStateOf? "dot" = some glState ∧ p.uniforms.get? "dot" = some uniforms ∧
      glState.get? "depthFunc" = some [.ofSymbols ["ALWAYS"]] ∧
      glState.get? "cullFace" = some [.ofSymbols ["BACK"]] ∧
      glState.get? "enable" = some [.ofSymbols ["BLEND"]] ∧
      glState.get? "frontFace" = some [.ofSymbols ["CW"]] ∧ glState.get? "blendFunc" = none ∧
      p.glState.get? "depthFunc" = some [.ofSymbols ["NEVER"]] ∧
      uniforms.get? "stroke" = some ⟨.float1, []⟩ ∧ uniforms.get? "fog" = some ⟨.float2, []⟩ := by
  have hresolve : layeredDocument.resolve = .ok layeredDocument.composed := rfl
  obtain ⟨p, hp⟩ : ∃ p, (layeredDocument.composed.scenes.get ⟨0, by decide⟩).compile
      layeredDocument.composed.catalogs (.build layeredDocument.composed.catalogs.items) = .ok p :=
    ⟨_, rfl⟩
  obtain ⟨-, hplans⟩ := (first_level_counts hresolve).get (i := 0) (by decide) (by decide)
  obtain ⟨hscene, hitems, -⟩ := hplans _ p hp
  have hdot : "dot" ∈ p.itemOrder := by
    rw [Plan.itemOrder_of_compile hp]
    exact List.mem_cons_self ..
  obtain ⟨own, glState, uniforms, hown, hglState, huniforms, hkeys, hdeclared⟩ := hitems _ hdot
  cases hown
  exact ⟨_, _, p, glState, uniforms, hresolve, rfl, hp, hglState, huniforms, hkeys _, hkeys _,
    hkeys _, hkeys _, hkeys _, hscene _, (hdeclared _).1, (hdeclared _).1⟩

end Document

end RenderPlan
