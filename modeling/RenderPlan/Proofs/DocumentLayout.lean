import RenderPlan.Proofs.RecordLayout
import RenderPlan.Proofs.SchemaLaws
import RenderPlan.Schema.Documents

/-!
# The layout of documents

A document depends on what its tree says, not on how the tree is laid out. Every type of the schema
obeys the law of layout, records with embedded ones included, and so a tree with distinct names and
any other that careful changes of layout make of it give the same document or none.

Careless changes do not. A field that is given under two spellings is refused whatever it says, and
dropping the member that spells out the default leaves a tree that is read.

## Main definitions

* `Texture.readings`, `Item.readings`, `Scene.readings`, `Document.readings` and the others: how the
  fields of a record are read

## Main results

* the instances of `Json.LaidOut` for the types of the schema
* `Document.decode_eq_of_careful`: the layout of a document does not matter
-/

namespace RenderPlan

open Json

/-! ## Programs, buffers and textures -/

/-- How the fields of a program are read. -/
def Program.readings (source : Source) : List (FieldReading Reading) :=
  [.withDefault (List String) source ⟨"attributes", []⟩ [],
    .withDefault (List String) source ⟨"textures", []⟩ []]

instance : HasReading Program where
  reading source := .record (Program.readings source)

instance : LaidOut Program where
  decode_eq hfits h := by
    refine bind_record?_eq (Program.readings _) Program.wellNamed.1 (fun r r' hsame => ?_) hfits h
    rw [hsame.withDefault "attributes" rfl, hsame.withDefault "textures" rfl]

/-- How the fields of an element layout are read. -/
def ElementLayout.readings (source : Source) : List (FieldReading Reading) :=
  [.required Component source ⟨"type", []⟩, .required UInt8 source ⟨"count", []⟩,
    .withDefault Bool source ⟨"normalize", []⟩ false]

instance : HasReading ElementLayout where
  reading source := .record (ElementLayout.readings source)

instance : LaidOut ElementLayout where
  decode_eq hfits h := by
    refine bind_record?_eq (ElementLayout.readings _) ElementLayout.wellNamed.1
      (fun r r' hsame => ?_) hfits h
    rw [hsame.required "type" rfl, hsame.required "count" rfl,
      hsame.withDefault "normalize" rfl]

/-- How the fields of a buffer are read. -/
def Buffer.readings (source : Source) : List (FieldReading Reading) :=
  [.required Buffer.Origin source ⟨"origin", ["datasource"]⟩,
    .required ElementLayout source ⟨"layout", []⟩]

instance : HasReading Buffer where
  reading source := .record (Buffer.readings source)

instance : LaidOut Buffer where
  decode_eq hfits h := by
    refine bind_record?_eq (Buffer.readings _) Buffer.wellNamed.1 (fun r r' hsame => ?_) hfits h
    rw [hsame.required "origin" rfl, hsame.required "layout" rfl]

/-- How the fields of a texture are read. -/
def Texture.readings (source : Source) : List (FieldReading Reading) :=
  [.required Texture.Origin source ⟨"origin", ["datasource"]⟩,
    .withDefault Binary32 source ⟨"scalingFactor", ["textureScalingFactor"]⟩ Texture.defaultScale]

instance : HasReading Texture where
  reading source := .record (Texture.readings source)

instance : LaidOut Texture where
  decode_eq hfits h := by
    refine bind_record?_eq (Texture.readings _) Texture.wellNamed.1 (fun r r' hsame => ?_) hfits h
    rw [hsame.required "origin" rfl, hsame.withDefault "scalingFactor" rfl]

/-! ## Items -/

/-- How the fields of a uniform are read. -/
def Uniform.readings (source : Source) : List (FieldReading Reading) :=
  [.required Uniform.Shape source ⟨"uniformType", []⟩,
    .required (List Binary32) source ⟨"defaultValues", []⟩]

instance : HasReading Uniform where
  reading source := .record (Uniform.readings source)

instance : LaidOut Uniform where
  decode_eq hfits h := by
    refine bind_record?_eq (Uniform.readings _) Uniform.wellNamed.1 (fun r r' hsame => ?_) hfits h
    rw [hsame.required "uniformType" rfl, hsame.required "defaultValues" rfl]

instance : HasReading GlState.Argument where
instance : HasReading AttributeRef where
instance : HasReading RenderTarget where

instance : LaidOut GlState.Argument := .of_leaves (fun _ _ => rfl) fun _ _ => rfl
instance : LaidOut RenderTarget := .of_leaves (fun _ _ => rfl) fun _ _ => rfl

/-- A reference has no element but strings. -/
theorem AttributeRef.decode_array_eq_none {source : Source} {elements : List Value} {v : Value}
    (hv : v ∈ elements) (hstring : v.string? = none) :
    decode source (.array elements) = (none : Option AttributeRef) := by
  simp only [decode]
  split
  · next heq =>
    cases heq
    rcases List.mem_pair.mp hv with rfl | rfl <;> cases hstring
  · rfl

instance : LaidOut AttributeRef where
  decode_eq _ h := by
    cases h with
    | permute | member => rfl
    | @element _ before after v w h =>
      have hstring : v.string? = none ∧ w.string? = none := by
        rcases h.eq_array_or_eq_object with ⟨_, _, rfl, rfl⟩ | ⟨_, _, rfl, rfl⟩ <;> exact ⟨rfl, rfl⟩
      have hmem (u : Value) : u ∈ before ++ u :: after := by simp
      rw [AttributeRef.decode_array_eq_none (hmem v) hstring.1,
        AttributeRef.decode_array_eq_none (hmem w) hstring.2]

/-- How the fields of an item are read. -/
def Item.readings (source : Source) : List (FieldReading Reading) :=
  [.required String source ⟨"program", []⟩,
    .withDefault NameSet source ⟨"triggers", []⟩ .empty,
    .withDefault (NameTable AttributeRef) source ⟨"bindings", []⟩ .empty,
    .withDefault (NameTable AttributeRef) source ⟨"otherBuffers", []⟩ .empty,
    .withDefault UniformTable source ⟨"uniforms", []⟩ .empty,
    .withDefault (NameTable String) source ⟨"textureBindings", []⟩ .empty,
    .required Primitive source ⟨"drawType", []⟩,
    .withDefault GlState source ⟨"glOptions", []⟩ .empty,
    .optional RenderTarget source ⟨"renderTarget", []⟩,
    .withDefault Bool source ⟨"readTarget", []⟩ false]

instance : HasReading Item where
  reading source := .record (Item.readings source)

instance : LaidOut Item where
  decode_eq hfits h := by
    refine bind_record?_eq (Item.readings _) Item.wellNamed.1 (fun r r' hsame => ?_) hfits h
    rw [Item.ofRecord?, Item.ofRecord?, hsame.required "program" rfl,
      hsame.withDefault "triggers" rfl, hsame.withDefault "bindings" rfl,
      hsame.withDefault "otherBuffers" rfl, hsame.withDefault "uniforms" rfl,
      hsame.withDefault "textureBindings" rfl, hsame.required "drawType" rfl,
      hsame.withDefault "glOptions" rfl, hsame.optional "renderTarget" rfl,
      hsame.withDefault "readTarget" rfl]

/-! ## Scenes -/

/-- How the fields of the visible region are read. -/
def Camera.Bounds.readings (source : Source) : List (FieldReading Reading) :=
  [.required Binary32 source ⟨"top", []⟩, .required Binary32 source ⟨"left", []⟩,
    .required Binary32 source ⟨"bottom", []⟩, .required Binary32 source ⟨"right", []⟩]

instance : HasReading Camera.Bounds where
  reading source := .record (Camera.Bounds.readings source)

instance : LaidOut Camera.Bounds where
  decode_eq hfits h := by
    refine bind_record?_eq (Camera.Bounds.readings _) Camera.Bounds.wellNamed.1
      (fun r r' hsame => ?_) hfits h
    rw [hsame.required "top" rfl, hsame.required "left" rfl, hsame.required "bottom" rfl,
      hsame.required "right" rfl]

/-- How the fields of a camera are read. -/
def Camera.readings (source : Source) : List (FieldReading Reading) :=
  [.required Camera.Projection source ⟨"type", []⟩, .required Camera.Bounds source ⟨"bounds", []⟩,
    .required Binary32 source ⟨"nearPlane", []⟩, .required Binary32 source ⟨"farPlane", []⟩]

instance : HasReading Camera where
  reading source := .record (Camera.readings source)

instance : LaidOut Camera where
  decode_eq hfits h := by
    refine bind_record?_eq (Camera.readings _) Camera.wellNamed.1 (fun r r' hsame => ?_) hfits h
    rw [hsame.required "type" rfl, hsame.required "bounds" rfl, hsame.required "nearPlane" rfl,
      hsame.required "farPlane" rfl]

/-- How the edge parameters are read. -/
def EdgeParameters.readings (source : Source) : List (FieldReading Reading) :=
  [.optional UInt32 source ⟨"numRenderedSplits", []⟩,
    .withDefault Bool source ⟨"clientMidEdgeInterpolation", []⟩ false,
    .optional Binary32 source ⟨"arcHeight", []⟩]

instance : HasReading EdgeParameters where
  reading source := .record (EdgeParameters.readings source)

instance : LaidOut EdgeParameters where
  decode_eq hfits h := by
    refine bind_record?_eq (EdgeParameters.readings _) EdgeParameters.wellNamed.1
      (fun r r' hsame => ?_) hfits h
    rw [hsame.optional "numRenderedSplits" rfl,
      hsame.withDefault "clientMidEdgeInterpolation" rfl, hsame.optional "arcHeight" rfl]

/-- How the fields of a scene itself are read. -/
def Scene.ownReadings (source : Source) : List (FieldReading Reading) :=
  [.required String source ⟨"name", []⟩, .withDefault Camera source ⟨"camera", []⟩ {},
    .withDefault GlState source ⟨"options", []⟩ .empty,
    .required (List String) source ⟨"render", []⟩]

/-- How the fields of a scene are read, the edge parameters among them. -/
def Scene.readings (source : Source) : List (FieldReading Reading) :=
  Scene.ownReadings source ++ EdgeParameters.readings .gathered

instance : HasReading Scene where
  reading source := .record (Scene.readings source)

instance : LaidOut Scene where
  decode_eq hfits h := by
    have hnames : ((Scene.fields ++ EdgeParameters.fields).map Field.name).Nodup := by decide
    refine bind_sharedRecord?_eq (Scene.ownReadings _) (EdgeParameters.readings .gathered) hnames
      (fun r r' others others' hsame hothers => ?_) hfits h
    have hparameters :
        decode .gathered others' = (decode .gathered others : Option EdgeParameters) :=
      hothers.decode_eq
    simp only [hparameters, Scene.ofRecord?]
    rw [hsame.required "name" rfl, hsame.withDefault "camera" rfl,
      hsame.withDefault "options" rfl, hsame.required "render" rfl]

/-! ## Documents -/

namespace Document

/-- How the fields of an item's entry besides the item's own are read. -/
def ItemEntry.ownReadings (source : Source) : List (FieldReading Reading) :=
  [.optional String source ⟨"uniformPreset", []⟩, .optional String source ⟨"glPreset", []⟩]

/-- How the fields of an item's entry are read, the item's own among them. -/
def ItemEntry.readings (source : Source) : List (FieldReading Reading) :=
  ItemEntry.ownReadings source ++ Item.readings .gathered

instance : HasReading ItemEntry where
  reading source := .record (ItemEntry.readings source)

instance : LaidOut ItemEntry where
  decode_eq hfits h := by
    have hnames : ((ItemEntry.fields ++ Item.fields).map Field.name).Nodup := by decide
    refine bind_sharedRecord?_eq (ItemEntry.ownReadings _) (Item.readings .gathered) hnames
      (fun r r' others others' hsame hothers => ?_) hfits h
    have hitem : decode .gathered others' = (decode .gathered others : Option Item) :=
      hothers.decode_eq
    simp only [hitem]
    rw [hsame.optional "uniformPreset" rfl, hsame.optional "glPreset" rfl]

/-- How the field of a scene's entry besides the scene's own is read. -/
def SceneEntry.ownReadings (source : Source) : List (FieldReading Reading) :=
  [.optional String source ⟨"optionsPreset", []⟩]

/-- How the fields of a scene's entry are read, the scene's own among them. -/
def SceneEntry.readings (source : Source) : List (FieldReading Reading) :=
  SceneEntry.ownReadings source ++ Scene.readings source

instance : HasReading SceneEntry where
  reading source := .record (SceneEntry.readings source)

instance : LaidOut SceneEntry where
  decode_eq {source v w} hfits h := by
    have hnames : ((SceneEntry.fields ++ (Scene.fields ++ EdgeParameters.fields)).map
      Field.name).Nodup := by decide
    refine bind_sharedRecord?_eq (SceneEntry.ownReadings _) (Scene.readings source) hnames
      (fun r r' others others' hsame hothers => ?_) hfits h
    have hscene : decode source others' = (decode source others : Option Scene) :=
      hothers.decode_eq
    simp only [hscene]
    rw [hsame.optional "optionsPreset" rfl]

/-- How the fields of a document are read. -/
def readings (source : Source) : List (FieldReading Reading) :=
  [.withDefault (NameTable Program) source ⟨"programs", []⟩ .empty,
    .withDefault (NameTable Model) source ⟨"models", []⟩ .empty,
    .withDefault (NameTable Texture) source ⟨"textures", []⟩ .empty,
    .withDefault (NameTable UniformTable) source ⟨"uniformPresets", []⟩ .empty,
    .withDefault (NameTable GlState) source ⟨"glPresets", []⟩ .empty,
    .withDefault (NameTable ItemEntry) source ⟨"items", []⟩ .empty,
    .withDefault (List SceneEntry) source ⟨"scenes", []⟩ []]

instance : HasReading Document where
  reading source := .record (readings source)

instance : LaidOut Document where
  decode_eq hfits h := by
    have hnames : (fields.map Field.name).Nodup := by decide
    refine bind_record?_eq (readings _) hnames (fun r r' hsame => ?_) hfits h
    rw [hsame.withDefault "programs" rfl, hsame.withDefault "models" rfl,
      hsame.withDefault "textures" rfl, hsame.withDefault "uniformPresets" rfl,
      hsame.withDefault "glPresets" rfl, hsame.withDefault "items" rfl,
      hsame.withDefault "scenes" rfl]

/-- The tree of a document that declares one texture, with the members given. -/
def textureTree (members : List (String × Value)) : Value :=
  .object [("textures", .object [("t", .object members)])]

theorem step_textureTree {careful : Bool} {members members' : List (String × Value)}
    (h : Step careful (reading Texture .direct) (.object members) (.object members')) :
    Step careful (reading Document .direct) (textureTree members) (textureTree members') :=
  .member _ [] [] "textures" (.member _ [] [] "t" h)

theorem decode_one_eq_defaultScale :
    decode .direct (.number (.integer 1)) = some Texture.defaultScale := by
  decide

/-- **The layout of a document does not matter**: members in another order, members that are no
field, other spellings of a field, and members that spell out the default of a field which is not
given once more. One tree is read exactly when the other is, and as the same document. -/
theorem decode_eq_of_careful {v w : Value} (hv : v.isReadable = true)
    (hnames : v.distinctNames = true)
    (h : Relation.ReflTransGen (Step true (reading Document .direct)) v w) :
    (decode .direct w : Option Document) = decode .direct v :=
  decode_eq_of_steps (fits_of_distinctNames _ hv hnames) h

/-- The scale that is the default is dropped, the origin respelled and a comment put before it. -/
theorem decode_eq_of_careful_texture :
    let v := textureTree [("origin", .string "CLIENT"), ("scalingFactor", .number (.integer 1))]
    let w := textureTree [("comment", .null), ("datasource", .string "CLIENT")]
    v.isReadable = true ∧ v.distinctNames = true ∧
      Relation.ReflTransGen (Step true (reading Document .direct)) v w ∧
      ∃ d : Document, decode .direct v = some d ∧ decode .direct w = some d := by
  intro v w
  have hv : v.isReadable = true := by decide
  have hnames : v.distinctNames = true := by decide
  have h : Relation.ReflTransGen (Step true (reading Document .direct)) v w := by
    refine .head (step_textureTree (.permute _ (.swap ..))) ?_
    refine .head (step_textureTree (.drop (Texture.readings .direct) [] [_] "scalingFactor" _ rfl
      decode_one_eq_defaultScale ?_)) ?_
    · intro _ other hother hfield
      obtain rfl := List.mem_singleton.mp hother
      exact absurd (congrArg (Option.map FieldReading.field) hfield) (by decide)
    refine .head (step_textureTree (.respell (Texture.readings .direct) [] [] "origin" "datasource"
      _ rfl rfl)) ?_
    exact .single (step_textureTree (.add (Texture.readings .direct) [] _ "comment" .null rfl rfl))
  have hread : (decode .direct (textureTree [("origin", .string "CLIENT"),
      ("scalingFactor", .number (.integer 1))]) : Option Document).isSome = true := rfl
  obtain ⟨d, hd⟩ := Option.isSome_iff_exists.mp hread
  exact ⟨hv, hnames, h, d, hd, (decode_eq_of_careful hv hnames h).trans hd⟩

/-- **Careless changes may matter**: a texture that gives its scale under both spellings is refused,
and once the member that spells out the default is dropped, it is read. -/
theorem not_forall_decode_eq_of_careless :
    ¬∀ v w : Value, v.isReadable = true → v.distinctNames = true →
      Relation.ReflTransGen (Step false (reading Document .direct)) v w →
      (decode .direct w : Option Document) = decode .direct v := by
  intro hall
  have h : Step false (reading Texture .direct)
      (.object [("origin", .string "CLIENT"), ("scalingFactor", .number (.integer 1)),
        ("textureScalingFactor", .number (.integer 2))])
      (.object [("origin", .string "CLIENT"), ("textureScalingFactor", .number (.integer 2))]) :=
    .drop (Texture.readings .direct) [_] [_] "scalingFactor" _ rfl decode_one_eq_defaultScale nofun
  have heq := hall _ _ (by decide) (by decide) (.single (step_textureTree h))
  have hnone : (decode .direct (textureTree [("origin", .string "CLIENT"),
      ("scalingFactor", .number (.integer 1)), ("textureScalingFactor", .number (.integer 2))]) :
        Option Document) = none := rfl
  have hsome : (decode .direct (textureTree [("origin", .string "CLIENT"),
      ("textureScalingFactor", .number (.integer 2))]) : Option Document).isSome = true := rfl
  rw [heq, hnone] at hsome
  cases hsome

end Document

end RenderPlan
