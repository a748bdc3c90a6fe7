import RenderPlan.Proofs.Decoding
import RenderPlan.Proofs.DocumentResolution
import RenderPlan.Proofs.DocumentRoundTrip

/-!
# Dumping what was loaded

Catalogs and scenes that were loaded from a text are dumped as a document without presets, and the
dump is loaded again. What can be read bounds what can be lost: GL state is finite, no target is a
texture of the reserved name, and no two scenes have one name. There remain the 32-bit numbers,
which a numeral beyond their range makes infinite. The dump says `null` of these.

## Main definitions

* `Document.Parts.HasFiniteSingles`, `Document.Parts.HasFiniteArcs`: the 32-bit numbers are finite
* `Document.Parts.settled`: catalogs and scenes as they come back

## Main results

* `Document.Parts.reloads_iff_finite`: what loading a dump gives
* `Document.Parts.not_forall_reloads`: not all that loads comes back
-/

namespace RenderPlan

open Json

/-! ## Finite numbers -/

theorem GlState.isFinite_overriddenBy {base own : GlState} (hbase : base.isFinite = true)
    (hown : own.isFinite = true) : GlState.isFinite (base.overriddenBy own) = true := by
  rw [GlState.isFinite, List.all_eq_true] at hbase hown ⊢
  intro calls hcalls
  obtain ⟨key, hkey⟩ := NameTable.mem_values_iff.mp hcalls
  rw [NameTable.get?_overriddenBy, Option.or_eq_some_iff] at hkey
  rcases hkey with hkey | ⟨-, hkey⟩
  · exact hown calls (NameTable.mem_values_iff.mpr ⟨key, hkey⟩)
  · exact hbase calls (NameTable.mem_values_iff.mpr ⟨key, hkey⟩)

namespace Document

/-- A preset that was read is finite, and so is the lack of one. -/
theorem isFinite_presetTable {presets : NameTable GlState}
    (h : ∀ preset ∈ presets.values, preset.isFinite = true) (preset : Option String) :
    GlState.isFinite (presetTable presets preset) = true := by
  cases hbase : preset.bind presets.get? with
  | none =>
    rw [presetTable, hbase]
    rfl
  | some base =>
    obtain ⟨name, -, hname⟩ := Option.bind_eq_some_iff.mp hbase
    rw [presetTable, hbase]
    exact h base (NameTable.mem_values_iff.mpr ⟨name, hname⟩)

namespace Parts

variable {parts : Parts}

/-- **The 32-bit numbers** of catalogs and scenes are finite, arc heights apart: the scales of
textures, the start values of uniforms and the numbers of cameras. -/
structure HasFiniteSingles (parts : Parts) : Prop where
  textures : ∀ texture ∈ parts.catalogs.textures.values, texture.scale.isFinite = true
  uniforms : ∀ item ∈ parts.catalogs.items.values, ∀ uniform ∈ item.uniforms.values,
    ∀ x ∈ uniform.defaults, x.isFinite = true
  cameras : ∀ scene ∈ parts.scenes, scene.camera.isFinite = true

/-- Every arc height that a scene has is finite. -/
def HasFiniteArcs (parts : Parts) : Prop :=
  ∀ scene ∈ parts.scenes, ∀ height, scene.parameters.arcHeight = some height →
    height.isFinite = true

/-- **Catalogs and scenes as they come back**: arc heights that are not finite are absent. -/
def settled (parts : Parts) : Parts := { parts with scenes := parts.scenes.map Scene.settled }

/-- **What is known of catalogs and scenes** that were loaded. -/
structure IsLoaded (parts : Parts) : Prop where
  texture : parts.catalogs.textures.contains RenderTarget.canvasWord = false
  sceneNames : (parts.scenes.map Scene.name).Nodup
  items : ∀ item ∈ parts.catalogs.items.values,
    item.glState.isFinite = true ∧ item.target.map RenderTarget.settled = item.target
  scenes : ∀ scene ∈ parts.scenes, scene.glState.isFinite = true

/-- What was read resolves to finite GL state, and to the targets that were read. -/
theorem isLoaded_of_ofText {text : String} (h : ofText text = .ok parts) : parts.IsLoaded := by
  obtain ⟨d, hd, h⟩ := bind_eq_ok_iff.mp h
  have hread : read? text = some d := by
    rw [Document.ofText] at hd
    split at hd
    · cases hd
    · next d' hread =>
      cases hd
      exact hread
  obtain ⟨hresolves, rfl⟩ := resolve_eq_ok_iff.mp (mapError_eq_ok_iff.mp h)
  have hd := isRead_of_read? hread
  refine ⟨hresolves.texture, ?_, fun item hitem => ?_, fun scene hscene => ?_⟩
  · rw [composed, List.map_map]
    exact hresolves.sceneNames
  · obtain ⟨name, hname⟩ := NameTable.mem_values_iff.mp hitem
    obtain ⟨entry, hentry, rfl⟩ :=
      Option.map_eq_some_iff.mp ((NameTable.get?_map ..).symm.trans hname)
    obtain ⟨hglState, htarget⟩ := hd.items entry (NameTable.mem_values_iff.mpr ⟨name, hentry⟩)
    exact ⟨GlState.isFinite_overriddenBy (isFinite_presetTable hd.glPresets _) hglState, htarget⟩
  · obtain ⟨entry, hentry, rfl⟩ := List.mem_map.mp hscene
    exact GlState.isFinite_overriddenBy (isFinite_presetTable hd.glPresets _)
      (hd.scenes entry hentry)

/-- Nothing but the arc heights of the scenes is settled in what was loaded. -/
theorem IsLoaded.settled_ofParts (h : parts.IsLoaded) :
    (ofParts parts).settled = ofParts parts.settled := by
  have hitems : (ofParts parts).items.map ItemEntry.settled = (ofParts parts).items := by
    refine NameTable.ext_get? fun name => ?_
    rw [ofParts, NameTable.get?_map, NameTable.get?_map, Option.map_map]
    refine Option.map_congr fun item hitem => ?_
    obtain ⟨-, htarget⟩ := h.items item (NameTable.mem_values_iff.mpr ⟨name, hitem⟩)
    show ({ item := { item with target := item.target.map RenderTarget.settled } } : ItemEntry) = _
    rw [htarget]
  have hscenes :
      (ofParts parts).scenes.map SceneEntry.settled = (ofParts parts.settled).scenes := by
    rw [ofParts, ofParts, Parts.settled, List.map_map, List.map_map]
    rfl
  rw [Document.settled, hitems, hscenes]
  rfl

/-- Of the numbers of what was loaded only 32-bit ones may not be finite. -/
theorem IsLoaded.isFinite_ofParts_iff (h : parts.IsLoaded) :
    (ofParts parts).isFinite = true ↔ parts.HasFiniteSingles := by
  have hitems : (∀ entry ∈ (ofParts parts).items.values, entry.isFinite = true) ↔
      ∀ item ∈ parts.catalogs.items.values, ∀ uniform ∈ item.uniforms.values,
        ∀ x ∈ uniform.defaults, x.isFinite = true := by
    rw [ofParts, NameTable.values_map, List.forall_mem_map]
    refine forall₂_congr fun item hitem => ?_
    show (item.uniforms.values.all Uniform.isFinite && item.glState.isFinite) = true ↔ _
    rw [(h.items item hitem).1, Bool.and_true]
    simp only [Uniform.isFinite, List.all_eq_true]
  have hscenes : (∀ entry ∈ (ofParts parts).scenes, entry.isFinite = true) ↔
      ∀ scene ∈ parts.scenes, scene.camera.isFinite = true := by
    rw [ofParts, List.forall_mem_map]
    refine forall₂_congr fun scene hscene => ?_
    show (scene.camera.isFinite && scene.glState.isFinite) = true ↔ _
    rw [h.scenes scene hscene, Bool.and_true]
  rw [Document.isFinite]
  simp only [Bool.and_eq_true, List.all_eq_true]
  rw [hitems, hscenes]
  constructor
  · rintro ⟨⟨⟨⟨htexture, -⟩, -⟩, hitem⟩, hscene⟩
    exact ⟨htexture, hitem, hscene⟩
  · rintro ⟨htexture, hitem, hscene⟩
    -- the document has no presets
    exact ⟨⟨⟨⟨htexture, List.forall_mem_nil _⟩, List.forall_mem_nil _⟩, hitem⟩, hscene⟩

theorem settled_eq_self_iff : parts.settled = parts ↔ parts.HasFiniteArcs := by
  have hscene (scene : Scene) : scene.settled = scene ↔
      ∀ height, scene.parameters.arcHeight = some height → height.isFinite = true := by
    obtain ⟨name, camera, glState, ⟨splits, client, arcHeight⟩, render⟩ := scene
    cases arcHeight with
    | none => simp [Scene.settled, EdgeParameters.settled]
    | some height => simp [Scene.settled, EdgeParameters.settled]
  obtain ⟨catalogs, scenes⟩ := parts
  have hscenes := List.map_eq_map_iff (f := Scene.settled) (g := id) (l := scenes)
  rw [List.map_id] at hscenes
  rw [HasFiniteArcs, ← forall₂_congr fun scene _ => hscene scene, settled, Parts.mk.injEq,
    and_iff_right rfl]
  exact hscenes

theorem IsLoaded.resolve_settled (h : parts.IsLoaded) :
    (ofParts parts.settled).resolve = .ok parts.settled := by
  have hnames : parts.settled.scenes.map Scene.name = parts.scenes.map Scene.name :=
    List.map_map ..
  exact resolve_ofParts_eq_ok_iff.mpr ⟨⟨h.texture, hnames ▸ h.sceneNames⟩, rfl⟩

/-- **Loading a dump** of what was loaded fails exactly when a 32-bit number other than an arc
height is not finite. Otherwise catalogs and scenes come back settled. -/
theorem IsLoaded.ofText_dump (h : parts.IsLoaded)
    (hwords : ∀ n ∈ (encode (ofParts parts)).numbers, n.KeepsWord) :
    (parts.HasFiniteSingles → ofText (ofParts parts).text = .ok parts.settled) ∧
      (¬parts.HasFiniteSingles → ofText (ofParts parts).text = .error .malformed) := by
  have hlimits : (encode (ofParts parts)).Within Number.IsWord64 Builder.deepestReadable :=
    encodesWithin _
  obtain ⟨v, hread, hrereads⟩ := Value.exists_read?_pretty hlimits hwords
  have hdocument : read? (ofParts parts).text =
      if (ofParts parts).isFinite then some (ofParts parts.settled) else none := by
    rw [read?, text, hread, Option.bind_some, Document.readsBack _ v .direct hrereads,
      h.settled_ofParts]
  rw [← h.isFinite_ofParts_iff]
  refine ⟨fun hfinite => ?_, fun hfinite => ?_⟩
  · rw [ofText, Document.ofText, hdocument, if_pos hfinite]
    show (ofParts parts.settled).resolve.mapError _ = _
    rw [h.resolve_settled]
    rfl
  · rw [ofText, Document.ofText, hdocument, if_neg hfinite]
    rfl

/-- **Catalogs and scenes that were loaded come back** from their dump, as long as finite words are
read back from their own texts, exactly when all their 32-bit numbers are finite. Where only arc
heights are not, these are absent from what comes back; otherwise the dump is no document. -/
theorem reloads_iff_finite {text : String} (h : ofText text = .ok parts)
    (hwords : ∀ n ∈ (encode (ofParts parts)).numbers, n.KeepsWord) :
    (ofText (ofParts parts).text = .ok parts ↔ parts.HasFiniteSingles ∧ parts.HasFiniteArcs) ∧
      (parts.HasFiniteSingles → ofText (ofParts parts).text = .ok parts.settled) ∧
      (¬parts.HasFiniteSingles → ofText (ofParts parts).text = .error .malformed) := by
  obtain ⟨hfinite, hinfinite⟩ := (isLoaded_of_ofText h).ofText_dump hwords
  refine ⟨?_, hfinite, hinfinite⟩
  rw [← settled_eq_self_iff]
  by_cases hsingles : parts.HasFiniteSingles
  · rw [hfinite hsingles, Except.ok.injEq, and_iff_right hsingles]
  · rw [hinfinite hsingles]
    exact iff_of_false nofun fun hboth => hsingles hboth.1

/-- A text with a scene whose arc height is beyond the range of 32-bit words, laid over a preset. -/
def archedText : String :=
  "\x7b\"glPresets\":\x7b\"a\":\x7b\"enable\":[[\"BLEND\"]]\x7d\x7d,\"scenes\":[\x7b\"name\":\"edges\",
    \"optionsPreset\":\"a\",\"arcHeight\":1e39,\"render\":[]\x7d]\x7d"

/-- What the text is loaded as. -/
def arched : Parts where
  catalogs := {}
  scenes :=
    [{ name := "edges"
       glState := .ofList [("enable", [.ofSymbols ["BLEND"]])]
       parameters := { arcHeight := some (.infinity false) } }]

/-- It is loaded with an infinite arc height, and comes back without one. -/
theorem reloads_arched :
    ofText archedText = .ok arched ∧ (∀ n ∈ (encode (ofParts arched)).numbers, n.KeepsWord) ∧
      arched.HasFiniteSingles ∧ ofText (ofParts arched).text = .ok arched.settled ∧
      ofText (ofParts arched).text ≠ .ok arched := by
  have hload : ofText archedText = .ok arched := by decide +kernel
  have hnumbers : (encode (ofParts arched)).numbers ⊆ (encode arcs).numbers := by decide +kernel
  have hwords : ∀ n ∈ (encode (ofParts arched)).numbers, n.KeepsWord :=
    fun n hn => keepsWord_arcs n (hnumbers hn)
  have hsingles : arched.HasFiniteSingles := by
    constructor <;> decide +kernel
  obtain ⟨hiff, hsettled, -⟩ := reloads_iff_finite hload hwords
  refine ⟨hload, hwords, hsingles, hsettled hsingles, fun hreload => ?_⟩
  exact absurd ((hiff.mp hreload).2 _ (List.mem_singleton_self _) _ rfl) (by decide +kernel)

/-- A text with a texture whose scale is beyond the range of 32-bit words. -/
def overflowingText : String :=
  "\x7b\"textures\": \x7b\"t\": \x7b\"origin\": \"CLIENT\", \"scalingFactor\": 1e39\x7d\x7d\x7d"

/-- What the text is loaded as. -/
def overflowing : Parts where
  catalogs := { textures := .ofList [("t", ⟨.client, .infinity false⟩)] }
  scenes := []

/-- **Not all that loads comes back**: the dump of a texture whose scale became infinite is no
document. -/
theorem not_forall_reloads :
    ¬∀ text parts, ofText text = .ok parts →
      (∀ n ∈ (encode (ofParts parts)).numbers, n.KeepsWord) →
      ofText (ofParts parts).text = .ok parts := by
  intro hall
  have hload : ofText overflowingText = .ok overflowing := by decide +kernel
  have hnumbers : (encode (ofParts overflowing)).numbers = [.single (.infinity false)] := by
    decide +kernel
  have hwords : ∀ n ∈ (encode (ofParts overflowing)).numbers, n.KeepsWord := by
    rw [hnumbers, List.forall_mem_singleton]
    intro hfinite
    exact absurd hfinite (by decide +kernel)
  have hreload := hall overflowingText overflowing hload hwords
  have hsingles : ¬overflowing.HasFiniteSingles := fun hsingles =>
    absurd (hsingles.textures _ (List.mem_singleton_self _)) (by decide +kernel)
  rw [((isLoaded_of_ofText hload).ofText_dump hwords).2 hsingles] at hreload
  cases hreload

end Parts

end Document

end RenderPlan
