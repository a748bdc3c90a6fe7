import RenderPlan.Document.Load
import RenderPlan.Proofs.SchemaLaws
import RenderPlan.Proofs.SchemaLimits

/-!
# Writing and reading documents

A document that was written as text and is loaded again comes back settled. It fails to load
exactly when a number other than an arc height is not finite, because such a number is written as
`null`, where only an arc height may be absent.

## Main definitions

* `Document.isFinite`: all numbers but the arc heights are finite
* `Document.settled`: the document that comes back

## Main results

* `Document.readsBack`: the law of documents, for any way in which their tree comes back
* `Document.ofText_text`: what loading the text of a document gives
-/

namespace RenderPlan

open Json

namespace Document

/-! ## Entries -/

namespace ItemEntry

theorem wellNamed : WellNamed fields := by decide

/-- The numbers of the item are finite. -/
def isFinite (entry : ItemEntry) : Bool := entry.item.isFinite

/-- The entry as it comes back. -/
def settled (entry : ItemEntry) : ItemEntry := { entry with item := entry.item.settled }

/-- The members of an entry besides the item's own. -/
def presetMembers (entry : ItemEntry) : List (String × Value) :=
  memberIfPresent "uniformPreset" entry.uniformPreset ++ memberIfPresent "glPreset" entry.glPreset

theorem areOf_presetMembers (entry : ItemEntry) : AreOf fields (entry.presetMembers ++ []) := by
  rw [presetMembers, List.append_assoc]
  exact .ifPresent (.ifPresent .nil)

theorem memberOf?_presetMembers (entry : ItemEntry) :
    memberOf? "uniformPreset" (entry.presetMembers ++ []) = entry.uniformPreset.map encode ∧
      memberOf? "glPreset" (entry.presetMembers ++ []) = entry.glPreset.map encode := by
  rw [presetMembers]
  cases entry.uniformPreset <;> cases entry.glPreset <;> exact ⟨rfl, rfl⟩

theorem readsBack : ReadsBack ItemEntry isFinite settled := by
  intro entry v source h
  have hothers : AreApartFrom fields entry.item.members :=
    entry.item.areOf_members.areApartFrom (by decide)
  -- the names of the presets come before the item's own members, and nothing after them
  have h : (Value.object (entry.presetMembers ++ entry.item.members ++ [])).Rereads v := by
    rw [List.append_nil]
    exact h
  obtain ⟨members, others, hrecord, hmembers, hitem⟩ :=
    sharedRecord?_of_rereads wellNamed source h entry.areOf_presetMembers hothers
  obtain ⟨huniform, hgl⟩ := entry.memberOf?_presetMembers
  have hdecode := Item.readsBack entry.item others .gathered hitem
  simp only [decode, hrecord, Option.bind_eq_bind, Option.bind_some] at hdecode ⊢
  rw [optional_of_rereads_whole readsBack_string rfl hmembers "uniformPreset" huniform,
    optional_of_rereads_whole readsBack_string rfl hmembers "glPreset" hgl, hdecode, isFinite,
    Option.map_id]
  cases entry.item.isFinite <;> rfl

end ItemEntry

namespace SceneEntry

theorem wellNamed : WellNamed fields := by decide

/-- The numbers of the scene are finite, its arc height apart. -/
def isFinite (entry : SceneEntry) : Bool := entry.scene.isFinite

/-- The entry as it comes back. -/
def settled (entry : SceneEntry) : SceneEntry := { entry with scene := entry.scene.settled }

theorem areApartFrom_members (s : Scene) : AreApartFrom fields s.members := by
  have hparameters : AreApartFrom fields s.parameters.members :=
    s.parameters.areOf_members.areApartFrom (by decide)
  refine AreApartFrom.append (AreApartFrom.append ?_ hparameters) ?_
  · show ∀ name ∈ ["name", "camera", "options"], fieldNamed? fields name = none
    decide
  · show ∀ name ∈ ["render"], fieldNamed? fields name = none
    decide

theorem readsBack : ReadsBack SceneEntry isFinite settled := by
  intro entry v source h
  have h : (Value.object
      (memberIfPresent "optionsPreset" entry.glPreset ++ entry.scene.members ++ [])).Rereads v := by
    rw [List.append_nil]
    exact h
  have hown : AreOf fields (memberIfPresent "optionsPreset" entry.glPreset ++ []) :=
    .ifPresent .nil
  have hgl : memberOf? "optionsPreset" (memberIfPresent "optionsPreset" entry.glPreset ++ []) =
      entry.glPreset.map encode := by
    cases entry.glPreset <;> rfl
  obtain ⟨members, others, hrecord, hmembers, hscene⟩ :=
    sharedRecord?_of_rereads wellNamed source h hown (areApartFrom_members entry.scene)
  have hdecode := Scene.readsBack entry.scene others source hscene
  simp only [decode, hrecord, Option.bind_eq_bind, Option.bind_some] at hdecode ⊢
  rw [optional_of_rereads_whole readsBack_string rfl hmembers "optionsPreset" hgl, hdecode,
    isFinite, Option.map_id]
  cases entry.scene.isFinite <;> rfl

end SceneEntry

/-! ## Documents -/

theorem wellNamed : WellNamed fields := by decide

/-- **All numbers are finite**: the scales of textures, the start values of uniforms and the numbers
of GL state and cameras, in presets, items and scenes. Only arc heights do not count. -/
def isFinite (d : Document) : Bool :=
  d.textures.values.all Texture.isFinite &&
    (d.uniformPresets.values.all fun preset => preset.values.all Uniform.isFinite) &&
    d.glPresets.values.all GlState.isFinite && d.items.values.all ItemEntry.isFinite &&
    d.scenes.all SceneEntry.isFinite

/-- **The document as it comes back**: in its items, targets that are textures of the reserved name
are the canvas, and in its scenes, arc heights that are not finite are absent. -/
def settled (d : Document) : Document :=
  { d with
    items := d.items.map ItemEntry.settled
    scenes := d.scenes.map SceneEntry.settled }

/-- The members that a document is written as. -/
def members (d : Document) : List (String × Value) :=
  [("programs", encode d.programs), ("models", encode d.models), ("textures", encode d.textures)] ++
    memberUnlessEmpty "uniformPresets" d.uniformPresets ++
    memberUnlessEmpty "glPresets" d.glPresets ++
    [("items", encode d.items), ("scenes", encode d.scenes)]

theorem areOf_unlessEmpty {α : Type} [Codec α] {field : Field} {fields : List Field}
    {t : NameTable α} {members : List (String × Value)} (h : AreOf fields members) :
    AreOf (field :: fields) (memberUnlessEmpty field.name t ++ members) := by
  rw [memberUnlessEmpty]
  split
  · exact h.skip
  · exact h.cons

theorem areOf_members (d : Document) : AreOf fields d.members := by
  have hlast : AreOf [⟨"items", []⟩, ⟨"scenes", []⟩]
      [("items", encode d.items), ("scenes", encode d.scenes)] :=
    .cons (.cons .nil)
  rw [members, List.append_assoc, List.append_assoc]
  exact .cons (.cons (.cons (areOf_unlessEmpty (areOf_unlessEmpty hlast))))

theorem memberOf?_members (d : Document) :
    memberOf? "uniformPresets" d.members =
        (if d.uniformPresets.isEmpty then none else some (encode d.uniformPresets)) ∧
      memberOf? "glPresets" d.members =
        (if d.glPresets.isEmpty then none else some (encode d.glPresets)) ∧
      memberOf? "items" d.members = some (encode d.items) ∧
      memberOf? "scenes" d.members = some (encode d.scenes) := by
  rw [members, memberUnlessEmpty, memberUnlessEmpty]
  cases d.uniformPresets.isEmpty <;> cases d.glPresets.isEmpty <;> exact ⟨rfl, rfl, rfl, rfl⟩

/-- **The law of documents.** -/
theorem readsBack : ReadsBack Document isFinite settled := by
  intro d v source h
  obtain ⟨members, hrecord, hmembers⟩ := record?_of_rereads wellNamed source h d.areOf_members
  obtain ⟨huniforms, hgl, hitems, hscenes⟩ := d.memberOf?_members
  simp only [decode, hrecord, Option.bind_eq_bind, Option.bind_some]
  rw [withDefault_of_rereads Program.readsBack.table hmembers "programs" rfl,
    withDefault_of_rereads Buffer.readsBack.table.table hmembers "models" rfl,
    withDefault_of_rereads Texture.readsBack.table_id hmembers "textures" rfl,
    withDefault_of_rereads_unlessEmpty Uniform.readsBack.table_id.table_id rfl rfl hmembers
      "uniformPresets" huniforms,
    withDefault_of_rereads_unlessEmpty GlState.readsBack.table_id rfl rfl hmembers "glPresets" hgl,
    withDefault_of_rereads ItemEntry.readsBack.table hmembers "items" hitems,
    withDefault_of_rereads SceneEntry.readsBack.list hmembers "scenes" hscenes, isFinite]
  -- the first field that is not finite ends the reading
  cases d.textures.values.all Texture.isFinite with
  | false => rfl
  | true =>
    cases d.uniformPresets.values.all fun preset => preset.values.all Uniform.isFinite with
    | false => rfl
    | true =>
      cases d.glPresets.values.all GlState.isFinite with
      | false => rfl
      | true =>
        cases d.items.values.all ItemEntry.isFinite with
        | false => rfl
        | true => cases d.scenes.all SceneEntry.isFinite <;> rfl

/-- **Loading the text of a document**, of which it is asked only that finite words are read back
from their own texts, fails exactly when a number other than an arc height is not finite. Otherwise
the document comes back settled. -/
theorem ofText_text (d : Document) (hwords : ∀ n ∈ (encode d).numbers, n.KeepsWord) :
    (ofText d.text = .error .malformed ↔ d.isFinite = false) ∧
      (d.isFinite = true → ofText d.text = .ok d.settled) := by
  have hlimits : (encode d).Within Number.IsWord64 Builder.deepestReadable := encodesWithin d
  obtain ⟨v, hread, hrereads⟩ := Value.exists_read?_pretty hlimits hwords
  have hlaw := readsBack d v .direct hrereads
  rw [ofText, read?, text, hread, Option.bind_some, hlaw]
  cases d.isFinite with
  | false => exact ⟨⟨fun _ => rfl, fun _ => rfl⟩, nofun⟩
  | true => exact ⟨⟨nofun, nofun⟩, fun _ => rfl⟩

/-- An item whose target is a texture of the reserved name. -/
def arcsItem : Item :=
  { program := "arcs", primitive := .lines, target := some (.texture "CANVAS") }

/-- A scene whose arc height is infinite. -/
def arcsScene : Scene :=
  { name := "edges", parameters := { arcHeight := some (.infinity false) }, render := ["arcs"] }

/-- A document of both, with a texture of half the canvas size. -/
def arcs : Document where
  textures := .ofList [("half", ⟨.client, 0.5⟩)]
  items := .ofList [("arcs", { item := arcsItem })]
  scenes := [{ scene := arcsScene }]

theorem keepsWord_arcs : ∀ n ∈ (encode arcs).numbers, n.KeepsWord := by
  have hnumbers : (encode arcs).numbers = [.single 0.5, .single (-1), .single 0, .single 0,
    .single 1, .single (-1), .single 10, .single (.infinity false)] := by decide +kernel
  have hhalf : Number.KeepsWord (.single 0.5) :=
    Number.keepsWord_single_of_tokens? (.double 0.5) (by decide +kernel) (by decide +kernel)
  have hminus : Number.KeepsWord (.single (-1)) :=
    Number.keepsWord_single_of_tokens? (.double (-1)) (by decide +kernel) (by decide +kernel)
  have hzero : Number.KeepsWord (.single 0) :=
    Number.keepsWord_single_of_tokens? (.double 0) (by decide +kernel) (by decide +kernel)
  have hone : Number.KeepsWord (.single 1) :=
    Number.keepsWord_single_of_tokens? (.double 1) (by decide +kernel) (by decide +kernel)
  have hten : Number.KeepsWord (.single 10) :=
    Number.keepsWord_single_of_tokens? (.double 10) (by decide +kernel) (by decide +kernel)
  have hinfinite : Number.KeepsWord (.single (.infinity false)) := by
    intro h
    exact absurd h (by decide +kernel)
  rw [hnumbers]
  simp [hhalf, hminus, hzero, hone, hten, hinfinite]

/-- It comes back with the canvas as the target and without an arc height. -/
theorem ofText_text_arcs :
    (∀ n ∈ (encode arcs).numbers, n.KeepsWord) ∧
      ofText arcs.text = .ok { arcs with
        items := .ofList [("arcs", { item := { arcsItem with target := some .canvas } })]
        scenes := [{ scene := { arcsScene with parameters := {} } }] } := by
  have hfinite : arcs.isFinite = true := by decide +kernel
  refine ⟨keepsWord_arcs, ?_⟩
  rw [(ofText_text arcs keepsWord_arcs).2 hfinite]
  decide +kernel

end Document

end RenderPlan
