import RenderPlan.Proofs.CodecLaws
import RenderPlan.Schema.Resources
import RenderPlan.Schema.Scenes

/-!
# Laws of the schema

Every declaration that a document holds comes back from its text as it was, provided that its
numbers are finite. There are two exceptions. A target that is a texture of the name reserved for
the canvas comes back as the canvas. An arc height that is not finite comes back as absent, where
any other such number makes the text unreadable.

## Main definitions

* `Texture.isFinite`, `Uniform.isFinite`, `GlState.isFinite`, `Camera.isFinite`, `Item.isFinite`,
  `Scene.isFinite`: all numbers are finite, arc heights apart
* `RenderTarget.settled`, `EdgeParameters.settled`, `Item.settled`, `Scene.settled`: what comes back

## Main results

* `Texture.readsBack`, `Uniform.readsBack`, `Item.readsBack`, `Scene.readsBack` and the others: the
  laws of the codecs
-/

namespace RenderPlan

open Json

/-! ## Programs, buffers and textures -/

theorem Program.wellNamed : WellNamed Program.fields := by decide

theorem Program.readsBack : ReadsBackWhole Program := by
  intro p v source h
  obtain ⟨members, hrecord, hmembers⟩ := record?_of_rereads wellNamed source h (List.Sublist.refl _)
  simp only [decode, hrecord, Option.bind_eq_bind, Option.bind_some]
  rw [withDefault_of_rereads readsBack_string.list hmembers "attributes" rfl,
    withDefault_of_rereads readsBack_string.list hmembers "textures" rfl]
  rfl

theorem Component.readsBack : ReadsBackWhole Component :=
  readsBack_keyword fun a => by cases a <;> rfl

theorem ElementLayout.wellNamed : WellNamed ElementLayout.fields := by decide

theorem ElementLayout.readsBack : ReadsBackWhole ElementLayout := by
  intro l v source h
  obtain ⟨members, hrecord, hmembers⟩ := record?_of_rereads wellNamed source h (List.Sublist.refl _)
  simp only [decode, hrecord, Option.bind_eq_bind, Option.bind_some]
  rw [required_of_rereads Component.readsBack hmembers "type" rfl,
    required_of_rereads readsBack_uint8 hmembers "count" rfl,
    withDefault_of_rereads readsBack_bool hmembers "normalize" rfl]
  rfl

theorem Buffer.Origin.readsBack : ReadsBackWhole Buffer.Origin :=
  readsBack_keyword fun a => by cases a <;> rfl

theorem Buffer.wellNamed : WellNamed Buffer.fields := by decide

theorem Buffer.readsBack : ReadsBackWhole Buffer := by
  intro b v source h
  obtain ⟨members, hrecord, hmembers⟩ := record?_of_rereads wellNamed source h (List.Sublist.refl _)
  simp only [decode, hrecord, Option.bind_eq_bind, Option.bind_some]
  rw [required_of_rereads Buffer.Origin.readsBack hmembers "origin" rfl,
    required_of_rereads ElementLayout.readsBack hmembers "layout" rfl]
  rfl

theorem Texture.Origin.readsBack : ReadsBackWhole Texture.Origin :=
  readsBack_keyword fun a => by cases a <;> rfl

theorem Texture.wellNamed : WellNamed Texture.fields := by decide

/-- The scale is finite. -/
def Texture.isFinite (t : Texture) : Bool := t.scale.isFinite

theorem Texture.readsBack : ReadsBack Texture Texture.isFinite id := by
  intro t v source h
  obtain ⟨members, hrecord, hmembers⟩ := record?_of_rereads wellNamed source h (List.Sublist.refl _)
  simp only [decode, hrecord, Option.bind_eq_bind, Option.bind_some]
  rw [required_of_rereads Texture.Origin.readsBack hmembers "origin" rfl,
    withDefault_of_rereads readsBack_single hmembers "scalingFactor" rfl, Texture.isFinite]
  cases t.scale.isFinite <;> rfl

/-! ## Items -/

theorem Uniform.Shape.readsBack : ReadsBackWhole Uniform.Shape :=
  readsBack_keyword fun a => by cases a <;> rfl

theorem Uniform.wellNamed : WellNamed Uniform.fields := by decide

/-- The start values are finite. -/
def Uniform.isFinite (u : Uniform) : Bool := u.defaults.all Binary.isFinite

theorem Uniform.readsBack : ReadsBack Uniform Uniform.isFinite id := by
  intro u v source h
  obtain ⟨members, hrecord, hmembers⟩ := record?_of_rereads wellNamed source h (List.Sublist.refl _)
  simp only [decode, hrecord, Option.bind_eq_bind, Option.bind_some]
  rw [required_of_rereads Uniform.Shape.readsBack hmembers "uniformType" rfl,
    required_of_rereads readsBack_single.list_id hmembers "defaultValues" rfl, Uniform.isFinite]
  cases u.defaults.all Binary.isFinite <;> rfl

/-- The argument is a symbol or a finite number. -/
def GlState.Argument.isFinite : GlState.Argument → Bool
  | .number x => x.isFinite
  | .symbol _ => true

theorem GlState.Argument.readsBack : ReadsBack GlState.Argument GlState.Argument.isFinite id := by
  intro a v source h
  cases a with
  | symbol name =>
    cases h
    rfl
  | number x =>
    cases h with
    | number h =>
      rw [Number.Rereads] at h
      rw [Argument.isFinite]
      split at h
      · next hfinite =>
        obtain ⟨n, rfl, rfl⟩ := h
        rw [if_pos hfinite]
        rfl
      · next hfinite =>
        rw [h, if_neg hfinite]
        rfl

/-- The numbers among the arguments are finite. -/
def GlState.isFinite (g : GlState) : Bool :=
  g.values.all fun calls => calls.all fun call => call.all Argument.isFinite

theorem GlState.readsBack : ReadsBack GlState GlState.isFinite id :=
  Argument.readsBack.list_id.list_id.table_id

theorem AttributeRef.readsBack : ReadsBackWhole AttributeRef := by
  intro ref v source h
  cases h with
  | array h =>
    -- the array has two elements, both strings
    obtain _ | ⟨hmodel, _ | ⟨hname, _ | _⟩⟩ := h
    cases hmodel
    cases hname
    rfl

theorem Primitive.readsBack : ReadsBackWhole Primitive :=
  readsBack_keyword fun a => by cases a <;> rfl

/-- The target as it comes back: a texture of the reserved name is taken for the canvas. -/
def RenderTarget.settled : RenderTarget → RenderTarget
  | .canvas => .canvas
  | .texture name => if name = canvasWord then .canvas else .texture name

theorem RenderTarget.readsBack : ReadsBack RenderTarget (fun _ => true) RenderTarget.settled := by
  intro target v source h
  cases h
  cases target <;> rfl

namespace Item

theorem wellNamed : WellNamed fields := by decide

theorem areOf_members (i : Item) : AreOf fields i.members := by
  have hlast : AreOf [⟨"renderTarget", []⟩, ⟨"readTarget", []⟩]
      (memberIfPresent "renderTarget" i.target ++ [("readTarget", encode i.readsTarget)]) :=
    .ifPresent (.cons .nil)
  rw [members, List.append_assoc]
  exact .cons (.cons (.cons (.cons (.cons (.cons (.cons (.cons hlast)))))))

/-- The numbers of the uniforms and the GL state are finite. -/
def isFinite (i : Item) : Bool := i.uniforms.values.all Uniform.isFinite && i.glState.isFinite

/-- The item as it comes back. -/
def settled (i : Item) : Item := { i with target := i.target.map RenderTarget.settled }

theorem memberOf?_target (i : Item) :
    memberOf? "renderTarget" i.members = i.target.map encode := by
  rw [members]
  cases i.target <;> rfl

theorem memberOf?_readsTarget (i : Item) :
    memberOf? "readTarget" i.members = some (encode i.readsTarget) := by
  rw [members]
  cases i.target <;> rfl

theorem readsBack : ReadsBack Item isFinite settled := by
  intro i v source h
  obtain ⟨members, hrecord, hmembers⟩ := record?_of_rereads wellNamed source h i.areOf_members
  simp only [decode, hrecord, Option.bind_eq_bind, Option.bind_some, ofRecord?]
  rw [required_of_rereads readsBack_string hmembers "program" rfl,
    withDefault_of_rereads readsBack_nameSet hmembers "triggers" rfl,
    withDefault_of_rereads AttributeRef.readsBack.table hmembers "bindings" rfl,
    withDefault_of_rereads AttributeRef.readsBack.table hmembers "otherBuffers" rfl,
    withDefault_of_rereads Uniform.readsBack.table_id hmembers "uniforms" rfl,
    withDefault_of_rereads readsBack_string.table hmembers "textureBindings" rfl,
    required_of_rereads Primitive.readsBack hmembers "drawType" rfl,
    withDefault_of_rereads GlState.readsBack hmembers "glOptions" rfl,
    optional_of_rereads_whole RenderTarget.readsBack rfl hmembers "renderTarget" i.memberOf?_target,
    withDefault_of_rereads readsBack_bool hmembers "readTarget" i.memberOf?_readsTarget, isFinite]
  -- only the uniforms and the GL state can fail
  cases i.uniforms.values.all Uniform.isFinite with
  | false => rfl
  | true =>
    cases i.glState.isFinite with
    | false => rfl
    | true => rfl

end Item

/-! ## Scenes -/

theorem Camera.Projection.readsBack : ReadsBackWhole Camera.Projection :=
  readsBack_keyword fun a => by cases a <;> rfl

theorem Camera.Bounds.wellNamed : WellNamed Camera.Bounds.fields := by decide

/-- The four sides are finite. -/
def Camera.Bounds.isFinite (b : Camera.Bounds) : Bool :=
  b.top.isFinite && b.left.isFinite && b.bottom.isFinite && b.right.isFinite

theorem Camera.Bounds.readsBack : ReadsBack Camera.Bounds Camera.Bounds.isFinite id := by
  intro b v source h
  obtain ⟨members, hrecord, hmembers⟩ := record?_of_rereads wellNamed source h (List.Sublist.refl _)
  simp only [decode, hrecord, Option.bind_eq_bind, Option.bind_some]
  rw [required_of_rereads readsBack_single hmembers "top" rfl,
    required_of_rereads readsBack_single hmembers "left" rfl,
    required_of_rereads readsBack_single hmembers "bottom" rfl,
    required_of_rereads readsBack_single hmembers "right" rfl, Bounds.isFinite]
  cases b.top.isFinite <;> cases b.left.isFinite <;> cases b.bottom.isFinite <;>
    cases b.right.isFinite <;> rfl

theorem Camera.wellNamed : WellNamed Camera.fields := by decide

/-- The region and the planes are finite. -/
def Camera.isFinite (c : Camera) : Bool :=
  c.bounds.isFinite && c.nearPlane.isFinite && c.farPlane.isFinite

theorem Camera.readsBack : ReadsBack Camera Camera.isFinite id := by
  intro c v source h
  obtain ⟨members, hrecord, hmembers⟩ := record?_of_rereads wellNamed source h (List.Sublist.refl _)
  simp only [decode, hrecord, Option.bind_eq_bind, Option.bind_some]
  rw [required_of_rereads Camera.Projection.readsBack hmembers "type" rfl,
    required_of_rereads Camera.Bounds.readsBack hmembers "bounds" rfl,
    required_of_rereads readsBack_single hmembers "nearPlane" rfl,
    required_of_rereads readsBack_single hmembers "farPlane" rfl, Camera.isFinite]
  cases c.bounds.isFinite <;> cases c.nearPlane.isFinite <;> cases c.farPlane.isFinite <;> rfl

namespace EdgeParameters

theorem wellNamed : WellNamed fields := by decide

theorem areOf_members (p : EdgeParameters) : AreOf fields p.members := by
  have hlast : AreOf [⟨"arcHeight", []⟩] (memberIfPresent "arcHeight" p.arcHeight ++ []) :=
    .ifPresent .nil
  rw [List.append_nil] at hlast
  rw [members, List.append_assoc]
  exact .ifPresent (.cons hlast)

/-- The parameters as they come back: an arc height that is not finite is lost. -/
def settled (p : EdgeParameters) : EdgeParameters :=
  { p with arcHeight := p.arcHeight.filter Binary.isFinite }

theorem memberOf?_members (p : EdgeParameters) :
    memberOf? "numRenderedSplits" p.members = p.renderedSplits.map encode ∧
      memberOf? "clientMidEdgeInterpolation" p.members =
        some (encode p.clientMidEdgeInterpolation) ∧
      memberOf? "arcHeight" p.members = p.arcHeight.map encode := by
  rw [members]
  cases p.renderedSplits <;> cases p.arcHeight <;> exact ⟨rfl, rfl, rfl⟩

theorem readsBack : ReadsBack EdgeParameters (fun _ => true) settled := by
  intro p v source h
  obtain ⟨members, hrecord, hmembers⟩ := record?_of_rereads wellNamed source h p.areOf_members
  obtain ⟨hsplits, hclient, harc⟩ := p.memberOf?_members
  simp only [decode, hrecord, Option.bind_eq_bind, Option.bind_some]
  rw [optional_of_rereads_whole readsBack_uint32 rfl hmembers "numRenderedSplits" hsplits,
    withDefault_of_rereads readsBack_bool hmembers "clientMidEdgeInterpolation" hclient,
    optional_of_rereads readsBack_single rfl rereads_null_of_not_isFinite hmembers "arcHeight" harc]
  simp [settled]

end EdgeParameters

namespace Scene

theorem wellNamed : WellNamed fields := by decide

/-- The numbers of the camera and the GL state are finite. -/
def isFinite (s : Scene) : Bool := s.camera.isFinite && s.glState.isFinite

/-- The scene as it comes back. -/
def settled (s : Scene) : Scene := { s with parameters := s.parameters.settled }

theorem readsBack : ReadsBack Scene isFinite settled := by
  intro s v source h
  have hothers : AreApartFrom fields s.parameters.members :=
    s.parameters.areOf_members.areApartFrom (by decide)
  obtain ⟨members, others, hrecord, hmembers, hparameters⟩ :=
    sharedRecord?_of_rereads wellNamed source h (List.Sublist.refl _) hothers
  -- the members that are no field of the scene are those of its parameters
  have hdecode : decode .gathered others = some s.parameters.settled :=
    EdgeParameters.readsBack s.parameters others .gathered hparameters
  simp only [decode, hrecord, Option.bind_eq_bind, Option.bind_some] at hdecode ⊢
  rw [hdecode, Option.bind_some, ofRecord?,
    required_of_rereads readsBack_string hmembers "name" rfl,
    withDefault_of_rereads Camera.readsBack hmembers "camera" rfl,
    withDefault_of_rereads GlState.readsBack hmembers "options" rfl,
    required_of_rereads readsBack_string.list hmembers "render" rfl, isFinite]
  cases s.camera.isFinite with
  | false => rfl
  | true =>
    cases s.glState.isFinite with
    | false => rfl
    | true => rfl

end Scene

end RenderPlan
