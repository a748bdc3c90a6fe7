import RenderPlan.Document.Load
import RenderPlan.Proofs.LastWrites
import RenderPlan.Proofs.Precedence

/-!
# The size of uploads

A write has to have as many values as the shape of its slot holds, so that a slot that has been
written is uploaded whole. A declaration does not have to: documents load and scenes compile with
any number of start values, and a new store, or one that has been reset, uploads as many as there
are. All uploads of a scene are whole exactly when all declarations that its items use have as many
values as their shapes hold.

## Main definitions

* `Uniform.IsSized`: a declaration with as many values as its shape holds
* `UniformStore.UploadsWhole`: what is held and uploaded for a uniform fills its shape

## Main results

* `UniformStore.uploadsWhole_run_iff`: when a uniform is uploaded whole after any calls
* `Document.uploads_whole_iff`: when all uniforms of a scene of a document always are
* `Document.not_forall_uploads_whole`: a document of which one is not
-/

namespace RenderPlan

/-- As many values are declared as the shape holds. -/
def Uniform.IsSized (u : Uniform) : Prop := u.defaults.length = u.shape.components

instance (u : Uniform) : Decidable u.IsSized := inferInstanceAs (Decidable (_ = _))

namespace UniformStore

/-- **The uniform is uploaded whole**: the store holds as many values as its shape, and uploads four
bytes for each, if it has a slot for the uniform at all. -/
def UploadsWhole (s : UniformStore) (item uniform : String) : Prop :=
  (s.values? item uniform).map List.length =
      (s.shape? item uniform).map Uniform.Shape.components ∧
    (s.bytes? item uniform).map List.length =
      (s.shape? item uniform).map fun shape => 4 * shape.components

variable {uniforms : NameTable UniformTable} {item uniform : String} {u : Uniform}

/-! ## Written values -/

/-- Calls that succeed fit the declarations. -/
theorem fits_of_mem_accepted {call : Operation} :
    ∀ {calls : List Operation} {written : String → String → Option (List Binary32)},
      call ∈ (ofWritten uniforms written).accepted calls → call.Fits uniforms
  | [], _, h => by cases h
  | first :: rest, written, h => by
    cases hfirst : (ofWritten uniforms written).attempt first with
    | ok after =>
      rw [accepted_cons_of_ok _ hfirst] at h
      obtain ⟨hfits, rfl⟩ := attempt_eq_ok_iff.mp hfirst
      rcases List.mem_cons.mp h with rfl | h
      · exact hfits
      · exact fits_of_mem_accepted h
    | error e =>
      rw [accepted_cons_of_error _ hfirst] at h
      exact fits_of_mem_accepted h

theorem Operation.Fits.length_eq {call : Operation} (h : call.Fits uniforms)
    {values : List Binary32} (hwrites : call.writes? item uniform = some values)
    (hu : declared? uniforms item uniform = some u) : values.length = u.shape.components := by
  cases call with
  | set item' uniform' values' =>
    rw [writes?, Option.ite_none_right_eq_some] at hwrites
    obtain ⟨⟨rfl, rfl⟩, hvalues⟩ := hwrites
    cases hvalues
    obtain ⟨u', hu', hlength⟩ := h
    cases hu.symm.trans hu'
    exact hlength
  | setEverywhere uniform' values' =>
    rw [writes?, Option.ite_none_right_eq_some] at hwrites
    obtain ⟨rfl, hvalues⟩ := hwrites
    cases hvalues
    exact h item u hu
  | reset => cases hwrites

/-- **The last write** of a slot has as many values as the shape of the slot holds. -/
theorem length_of_lastWritten {calls : List Operation} {values : List Binary32}
    (h : lastWritten ((ofDefaults uniforms).accepted calls) item uniform = some values)
    (hu : declared? uniforms item uniform = some u) : values.length = u.shape.components := by
  obtain ⟨call, hcall, hwrites⟩ := List.exists_of_findSome?_eq_some h
  have haccepted : call ∈ (ofDefaults uniforms).accepted calls :=
    List.mem_reverse.mp ((List.takeWhile_sublist _).subset hcall)
  exact (fits_of_mem_accepted (ofWritten_none uniforms ▸ haccepted)).length_eq hwrites hu

/-! ## Slots -/

/-- A slot is uploaded whole when the values it holds fill its shape. -/
theorem uploadsWhole_iff {s : UniformStore} :
    s.UploadsWhole item uniform ↔
      ∀ slot, s.slot? item uniform = some slot →
        slot.values.length = slot.shape.components := by
  rw [UploadsWhole, values?, bytes?, shape?]
  cases s.slot? item uniform with
  | none => simp
  | some slot =>
    simp only [Option.map_some, Option.some.injEq, forall_eq', Slot.length_bytes]
    exact and_iff_left_of_imp fun hlength => congrArg (4 * ·) hlength

/-- **After any calls** a uniform is uploaded whole when it has been written since the last reset,
and else when its declaration is sized. -/
theorem uploadsWhole_run_iff {calls : List Operation} :
    ((ofDefaults uniforms).run calls).UploadsWhole item uniform ↔
      ∀ u, declared? uniforms item uniform = some u →
        lastWritten ((ofDefaults uniforms).accepted calls) item uniform ≠ none ∨ u.IsSized := by
  simp only [uploadsWhole_iff, run_ofDefaults, slot?_ofWritten, Option.map_eq_some_iff,
    forall_exists_index, and_imp, forall_apply_eq_imp_iff₂]
  refine forall₂_congr fun u hu => ?_
  show ((lastWritten _ item uniform).getD u.defaults).length = u.shape.components ↔ _
  cases hwritten : lastWritten ((ofDefaults uniforms).accepted calls) item uniform with
  | none => simp [Uniform.IsSized]
  | some values => simp [length_of_lastWritten hwritten hu]

/-- **All uniforms are always uploaded whole** exactly when all declarations are sized: before the
first call nothing has been written. -/
theorem forall_uploadsWhole_run_iff :
    (∀ calls item uniform, ((ofDefaults uniforms).run calls).UploadsWhole item uniform) ↔
      ∀ item uniform u, declared? uniforms item uniform = some u → u.IsSized := by
  simp only [uploadsWhole_run_iff]
  constructor
  · intro h item uniform u hu
    exact (h [] item uniform u hu).resolve_left fun hwritten => hwritten rfl
  · exact fun h _ item uniform u hu => .inr (h item uniform u hu)

end UniformStore

/-! ## Scenes of a document -/

namespace Document

open NameTable (firstValue?)
open UniformStore (declared? lastWritten)

variable {d : Document} {parts : Parts} {scene : Scene} {index : TriggerIndex} {p : Plan}

/-- **The uniforms of a plan** are those that the items of the scene declare, before those of the
presets that they are laid over. -/
theorem declared?_of_compile (h : d.resolve = .ok parts)
    (hp : scene.compile parts.catalogs index = .ok p) {name uniform : String} {u : Uniform} :
    declared? p.uniforms name uniform = some u ↔
      name ∈ scene.render ∧ ∃ own, d.items.get? name = some own ∧
        firstValue? [own.item.uniforms, presetTable d.uniformPresets own.uniformPreset] uniform =
          some u := by
  obtain ⟨-, rfl⟩ := resolve_eq_ok_iff.mp h
  have hitems (item : Item) : d.composed.catalogs.items.get? name = some item ↔
      ∃ own, d.items.get? name = some own ∧ d.composedItem own = item := by
    rw [composed, NameTable.get?_map, Option.map_eq_some_iff]
  simp only [declared?, Option.bind_eq_some_iff, Plan.uniforms_of_compile hp, hitems,
    ← get?_composedItem_uniforms]
  constructor
  · rintro ⟨_, ⟨hname, _, ⟨own, hown, rfl⟩, rfl⟩, hu⟩
    exact ⟨hname, own, hown, hu⟩
  · rintro ⟨hname, own, hown, hu⟩
    exact ⟨_, ⟨hname, _, ⟨own, hown, rfl⟩, rfl⟩, hu⟩

/-- **When uploads are whole.** Whatever was called on the store of a scene of a document, four bytes
are uploaded for each value that a slot holds, and the slot holds as many values as its shape when
it has been written since the last reset, and else when it is declared with as many. So all uploads
of the scene are whole, after any calls, exactly when each uniform of each item that it draws is
declared with as many values as its shape holds, by the item itself or else by its preset. -/
theorem uploads_whole_iff (h : d.resolve = .ok parts)
    (hp : scene.compile parts.catalogs index = .ok p) :
    (∀ calls item uniform,
      let s := p.newStore.run calls
      (s.bytes? item uniform).map List.length =
        (s.values? item uniform).map (fun values => 4 * values.length) ∧
      (s.UploadsWhole item uniform ↔ ∀ u, declared? p.uniforms item uniform = some u →
        lastWritten (p.newStore.accepted calls) item uniform ≠ none ∨ u.IsSized)) ∧
    ((∀ calls item uniform, (p.newStore.run calls).UploadsWhole item uniform) ↔
      ∀ name ∈ scene.render, ∀ own, d.items.get? name = some own → ∀ uniform u,
        firstValue? [own.item.uniforms, presetTable d.uniformPresets own.uniformPreset] uniform =
          some u → u.IsSized) := by
  refine ⟨fun calls item uniform => ⟨?_, UniformStore.uploadsWhole_run_iff⟩, ?_⟩
  · rw [UniformStore.bytes?, UniformStore.values?, Option.map_map, Option.map_map]
    exact Option.map_congr fun slot _ => slot.length_bytes
  · refine UniformStore.forall_uploadsWhole_run_iff.trans ?_
    simp only [declared?_of_compile h hp, and_imp, forall_exists_index]
    exact ⟨fun h name hname own hown uniform u hu => h name uniform u hname own hown hu,
      fun h name uniform u hname own hown hu => h name hname own hown uniform u hu⟩

/-- A text that declares one value for a uniform of two, in a preset. -/
def shortText : String :=
  "\x7b\"programs\": \x7b\"dots\": \x7b\x7d\x7d,
    \"uniformPresets\": \x7b\"plain\": \x7b\"size\": \x7b
      \"uniformType\": \"2f\", \"defaultValues\": [1]\x7d\x7d\x7d,
    \"items\": \x7b\"dot\": \x7b
      \"program\": \"dots\", \"drawType\": \"POINTS\", \"uniformPreset\": \"plain\"\x7d\x7d,
    \"scenes\": [\x7b\"name\": \"main\", \"render\": [\"dot\"]\x7d]\x7d"

/-- The uniform of two values of which one is declared. -/
def shortUniform : Uniform := ⟨.float2, [1]⟩

/-- The scene of the text. -/
def shortScene : Scene := { name := "main", render := ["dot"] }

/-- The document of the text. -/
def short : Document where
  programs := .ofList [("dots", {})]
  uniformPresets := .ofList [("plain", .ofList [("size", shortUniform)])]
  items := .ofList
    [("dot", { uniformPreset := some "plain", item := { program := "dots", primitive := .points } })]
  scenes := [{ scene := shortScene }]

set_option maxRecDepth 4000 in
theorem ofText_shortText : Parts.ofText shortText = .ok short.composed := by
  -- the characters are taken from the literal first, since the kernel is slow to decode a text
  have hchars : shortText.toList = _ := String.toList_ofList
  rw [Parts.ofText, Document.ofText, read?, Json.read?, hchars]
  decide +kernel

theorem not_isSized_shortUniform : ¬shortUniform.IsSized := by decide

theorem declared?_short
    (hp : shortScene.compile short.composed.catalogs (.build short.composed.catalogs.items) = .ok p) :
    declared? p.uniforms "dot" "size" = some shortUniform := by
  have hresolve : short.resolve = .ok short.composed := rfl
  exact (declared?_of_compile hresolve hp).mpr ⟨List.mem_singleton_self _, _, rfl, rfl⟩

/-- A write that fits the shape, and a reset. -/
def writeAndReset : List UniformStore.Operation := [.set "dot" "size" [1, 1], .reset]

/-- The uniform is not uploaded whole at first, is when it has been written, and is not again after
a reset. -/
theorem uploads_whole_short :
    ∃ p, short.resolve = .ok short.composed ∧
      shortScene.compile short.composed.catalogs (.build short.composed.catalogs.items) = .ok p ∧
      ¬p.newStore.UploadsWhole "dot" "size" ∧
      (p.newStore.run (writeAndReset.take 1)).UploadsWhole "dot" "size" ∧
      ¬(p.newStore.run writeAndReset).UploadsWhole "dot" "size" ∧
      ¬∀ calls item uniform, (p.newStore.run calls).UploadsWhole item uniform := by
  have hresolve : short.resolve = .ok short.composed := rfl
  obtain ⟨p, hp⟩ : ∃ p, shortScene.compile short.composed.catalogs
      (.build short.composed.catalogs.items) = .ok p := ⟨_, rfl⟩
  have hsize := declared?_short hp
  have hwritten : ((shortScene.compile short.composed.catalogs
      (.build short.composed.catalogs.items)).toOption.map fun p =>
        [[], writeAndReset.take 1, writeAndReset].map fun calls =>
          lastWritten (p.newStore.accepted calls) "dot" "size") =
      some [none, some [1, 1], none] := by
    decide +kernel
  rw [hp] at hwritten
  simp only [Except.toOption, Option.map_some, List.map_cons, List.map_nil, Option.some.injEq,
    List.cons.injEq, and_true] at hwritten
  obtain ⟨hnew, hset, hreset⟩ := hwritten
  obtain ⟨hcalls, hall⟩ := uploads_whole_iff hresolve hp
  have hunwritten {calls} (h : lastWritten (p.newStore.accepted calls) "dot" "size" = none) :
      ¬(p.newStore.run calls).UploadsWhole "dot" "size" := fun hwhole =>
    ((hcalls calls "dot" "size").2.mp hwhole shortUniform hsize).elim (· h)
      not_isSized_shortUniform
  refine ⟨p, hresolve, hp, hunwritten hnew, (hcalls _ _ _).2.mpr fun u _ => .inl ?_,
    hunwritten hreset, fun h => ?_⟩
  · rw [hset]
    exact Option.some_ne_none _
  · exact not_isSized_shortUniform
      (hall.mp h "dot" (List.mem_singleton_self _) _ rfl "size" shortUniform rfl)

/-- **Not all that loads uploads whole**: of a uniform of two values one is uploaded. -/
theorem not_forall_uploads_whole :
    ¬∀ text parts, Parts.ofText text = .ok parts → ∀ scene ∈ parts.scenes, ∀ p,
      scene.compile parts.catalogs (.build parts.catalogs.items) = .ok p →
      ∀ calls item uniform, (p.newStore.run calls).UploadsWhole item uniform := by
  intro hall
  have hscenes : short.composed.scenes = [shortScene] := by decide +kernel
  obtain ⟨p, hp⟩ : ∃ p, shortScene.compile short.composed.catalogs
      (.build short.composed.catalogs.items) = .ok p := ⟨_, rfl⟩
  have hscene : shortScene ∈ short.composed.scenes := hscenes ▸ List.mem_singleton_self _
  have hwhole := hall shortText short.composed ofText_shortText shortScene hscene p hp [] "dot" "size"
  exact (UniformStore.uploadsWhole_run_iff.mp hwhole shortUniform (declared?_short hp)).elim
    (· rfl) not_isSized_shortUniform

end Document

end RenderPlan
