import RenderPlan.Proofs.FetchProtocol
import RenderPlan.Proofs.SelfContainment

/-!
# What a render loop draws

Whether a draw can be made is read off the plan, which holds the declarations that it was compiled
from. So the answer is that of the catalogs: an item can be drawn when every buffer that it refers
to, every texture that it samples and the texture that it draws into has arrived, as far as the
catalogs have it come from the server. A render loop makes frames while resources are requested,
arrive and are evicted; whatever the order, it draws an item only when its inputs are there and
defers it only when one of them is not.

## Main definitions

* `Catalogs.InputsReady`, `Catalogs.ItemReady`: what an item needs from the server has arrived
* `Maintains`: a computation keeps a property of its state, and its result has a property
* `Renderer.noting`: a renderer that notes the draws that it is asked to make
* `RenderLoop`, `RenderLoop.Step`, `RenderLoop.Reachable`: frames among the traffic of resources

## Main results

* `Plan.isDrawable_iff_itemReady`: the gate of a plan is that of the catalogs
* `Plan.frame_maintains`: a frame asks the renderer for draws that pass the gate, and for no others
* `RenderLoop.draws_exactly_what_is_ready`: what any render loop draws and defers
-/

namespace RenderPlan

/-! ## Inputs of an item -/

namespace Catalogs

/-- The buffer that a reference points at does not come from the server, or its model is there. -/
def BufferReady (c : Catalogs) (r : Residency) (ref : AttributeRef) : Prop :=
  ∀ buffer, c.buffer? ref = some buffer →
    buffer.origin = .serverHost ∨ buffer.origin = .serverDevice → ref.model ∈ r.buffers.resident

/-- The texture does not come from the server, or it is there. -/
def TextureReady (c : Catalogs) (r : Residency) (name : String) : Prop :=
  ∀ texture, c.textures.get? name = some texture → texture.origin = .server →
    name ∈ r.textures.resident

/-- **Everything that an item needs from the server is there**: its buffers, drawn or kept, the
textures bound to samplers that its program declares, and the texture that it draws into. -/
structure InputsReady (c : Catalogs) (r : Residency) (item : Item) : Prop where
  bindings : item.bindings.Forall fun _ ref => c.BufferReady r ref
  otherBuffers : item.otherBuffers.Forall fun _ ref => c.BufferReady r ref
  samples : ∀ program, c.programs.get? item.program = some program →
    item.textureBindings.Forall fun sampler texture =>
      sampler ∈ program.samplers → c.TextureReady r texture
  target : ∀ texture, item.target = some (.texture texture) → c.TextureReady r texture

/-- The item is declared, and everything that it needs from the server is there. -/
def ItemReady (c : Catalogs) (r : Residency) (name : String) : Prop :=
  ∃ item, c.items.get? name = some item ∧ c.InputsReady r item

end Catalogs

section Inputs

variable {c : Catalogs} {item : ResolvedItem} {r : Residency}

/-- What holds of every use holds of what its key leads to. -/
theorem forall_uses_iff {κ α : Type} {lookup : κ → Option α} {uses : List (κ × α)}
    (huses : ∀ use ∈ uses, lookup use.1 = some use.2) {P : κ → α → Prop} :
    (∀ use ∈ uses, P use.1 use.2) ↔
      ∀ key ∈ uses.map Prod.fst, ∀ value, lookup key = some value → P key value := by
  rw [List.forall_mem_map]
  refine forall₂_congr fun use huse => ?_
  rw [huses use huse]
  exact ⟨fun h value hvalue => Option.some.inj hvalue ▸ h, fun h => h _ rfl⟩

namespace ResolvedItem.FoundIn

theorem forall_buffers_iff (h : item.FoundIn c) :
    (∀ use ∈ item.buffers, use.2.origin.isServer = true → use.1.model ∈ r.buffers.resident) ↔
      (item.item.bindings.Forall fun _ ref => c.BufferReady r ref) ∧
        item.item.otherBuffers.Forall fun _ ref => c.BufferReady r ref := by
  rw [forall_uses_iff h.buffers (P := fun ref buffer =>
    buffer.origin.isServer = true → ref.model ∈ r.buffers.resident), h.bufferRefs,
    Catalogs.attributeRefs_eq, List.forall_mem_append, NameTable.forall_values_iff,
    NameTable.forall_values_iff]
  simp only [Buffer.Origin.isServer_iff]
  rfl

theorem forall_samples_iff (h : item.FoundIn c) :
    (∀ use ∈ item.samples, use.2.isServer = true → use.1 ∈ r.textures.resident) ↔
      item.item.textureBindings.Forall fun sampler texture =>
        sampler ∈ item.program.samplers → c.TextureReady r texture := by
  rw [forall_uses_iff h.samples (P := fun name texture =>
    texture.isServer = true → name ∈ r.textures.resident), h.sampleNames, Item.sampledTextures,
    NameTable.forall_values_iff, NameTable.forall_filter]
  simp only [Texture.isServer_iff, Program.hasSampler, List.contains_iff_mem]
  rfl

theorem forall_target_iff (h : item.FoundIn c) :
    (∀ use ∈ item.target.toList, use.2.isServer = true → use.1 ∈ r.textures.resident) ↔
      ∀ texture, item.item.target = some (.texture texture) → c.TextureReady r texture := by
  have htarget : ∀ use ∈ item.target.toList, c.textures.get? use.1 = some use.2 :=
    fun use huse => h.target use (Option.mem_toList.mp huse)
  rw [forall_uses_iff htarget (P := fun name texture =>
    texture.isServer = true → name ∈ r.textures.resident), ← Option.toList_map, h.targetName]
  simp only [Option.mem_toList, Catalogs.targetTexture?_eq_some_iff, Texture.isServer_iff]
  rfl

/-- The inputs of an item are ready when each of its uses that comes from the server is there. -/
theorem inputsReady_iff (h : item.FoundIn c) :
    c.InputsReady r item.item ↔
      (∀ use ∈ item.buffers, use.2.origin.isServer = true → use.1.model ∈ r.buffers.resident) ∧
        ∀ use ∈ item.textureUses, use.2.isServer = true → use.1 ∈ r.textures.resident := by
  rw [ResolvedItem.textureUses, List.forall_mem_append, h.forall_buffers_iff, h.forall_samples_iff,
    h.forall_target_iff]
  constructor
  · intro hready
    exact ⟨⟨hready.bindings, hready.otherBuffers⟩, hready.samples _ h.program, hready.target⟩
  · rintro ⟨⟨hbindings, hothers⟩, hsamples, htarget⟩
    refine ⟨hbindings, hothers, fun program hprogram => ?_, htarget⟩
    obtain rfl := Option.some.inj (h.program.symm.trans hprogram)
    exact hsamples

end ResolvedItem.FoundIn

/-- **The gate of a plan is that of the catalogs**: a draw of a compiled plan can be made exactly
when the catalogs' own declaration of its item has all inputs from the server there. -/
theorem Plan.isDrawable_iff_itemReady {s : Scene} {index : TriggerIndex} {p : Plan}
    (h : s.compile c index = .ok p) {d : Draw} (hd : d ∈ p.draws) :
    p.isDrawable d r = true ↔ c.ItemReady r d.name := by
  obtain ⟨rs, -, hrs, rfl⟩ := Scene.compile_eq_ok_iff.mp h
  rw [draws_ofItems] at hd
  obtain ⟨item, hitem, rfl⟩ := List.mem_map.mp hd
  have hfound := hrs item hitem
  rw [isDrawable_ofItems_iff hrs hitem rfl, ← hfound.inputsReady_iff]
  constructor
  · exact fun hready => ⟨item.item, hfound.item, hready⟩
  · rintro ⟨declared, hdeclared, hready⟩
    obtain rfl := Option.some.inj (hfound.item.symm.trans hdeclared)
    exact hready

end Inputs

/-! ## Computations that keep a property -/

section Maintains

variable {σ ε α β : Type} {P : σ → Prop}

/-- Whether it succeeds or fails, the computation keeps `P` of the state, and when it succeeds its
result satisfies `Q`. -/
def Maintains (P : σ → Prop) (x : ExceptT ε (StateM σ) α) (Q : α → Prop) : Prop :=
  ∀ state, P state → P (x.run.run state).2 ∧ ∀ a, (x.run.run state).1 = .ok a → Q a

theorem Maintains.pure {Q : α → Prop} {a : α} (h : Q a) :
    Maintains P (Pure.pure a : ExceptT ε (StateM σ) α) Q := by
  intro state hstate
  refine ⟨hstate, fun b hb => ?_⟩
  cases hb
  exact h

theorem Maintains.bind {x : ExceptT ε (StateM σ) α} {f : α → ExceptT ε (StateM σ) β}
    {Q : α → Prop} {R : β → Prop} (hx : Maintains P x Q) (hf : ∀ a, Q a → Maintains P (f a) R) :
    Maintains P (x >>= f) R := by
  intro state hstate
  obtain ⟨hkept, hresult⟩ := hx state hstate
  rw [ExceptT.run_bind, StateT.run_bind]
  cases hrun : x.run.run state with
  | mk result state₁ =>
    rw [hrun] at hkept hresult
    cases result with
    | ok a => exact hf a (hresult a rfl) state₁ hkept
    | error e => exact ⟨hkept, fun b hb => by cases hb⟩

theorem Maintains.forM {f : α → ExceptT ε (StateM σ) PUnit} :
    ∀ {xs : List α}, (∀ x ∈ xs, Maintains P (f x) fun _ => True) →
      Maintains P (xs.forM f) fun _ => True
  | [], _ => .pure trivial
  | x :: xs, h => by
    rw [List.forall_mem_cons] at h
    exact .bind h.1 fun _ _ => .forM h.2

end Maintains

section Frames

variable {σ ε : Type}

/-- Every call keeps `P` of the backend's state, a draw if it is an allowed one. -/
structure Renderer.Maintains (renderer : Renderer (ExceptT ε (StateM σ))) (P : σ → Prop)
    (allowed : Plan.Draw → Prop) : Prop where
  ensureTarget : ∀ name target,
    RenderPlan.Maintains P (renderer.ensureTarget name target) fun _ => True
  draw : ∀ p d store, allowed d → RenderPlan.Maintains P (renderer.draw p d store) fun _ => True
  readBack : ∀ name target, RenderPlan.Maintains P (renderer.readBack name target) fun _ => True

namespace Plan

variable {renderer : Renderer (ExceptT ε (StateM σ))} {P : σ → Prop} {allowed : Draw → Prop}
  (hrenderer : renderer.Maintains P allowed) {p : Plan} {store : UniformStore} {r : Residency}
include hrenderer

theorem drawEach_maintains :
    ∀ {draws : List Draw} {start : FrameReport},
      (∀ d ∈ draws, p.isDrawable d r = true → allowed d) →
      RenderPlan.Maintains P (p.drawEach renderer store r draws start)
        fun report => report = p.report r draws start
  | [], _, _ => .pure rfl
  | d :: draws, start, h => by
    obtain ⟨hd, hdraws⟩ := List.forall_mem_cons.mp h
    rw [drawEach, report, List.foldl_cons]
    cases hdrawable : p.isDrawable d r with
    | true =>
      exact .bind (hrenderer.draw p d store (hd hdrawable)) fun _ _ => drawEach_maintains hdraws
    | false => exact drawEach_maintains hdraws

/-- **A frame asks for draws that pass the gate**, and for no others: it keeps what a renderer keeps
when it makes such draws only. If it ends well, it has deferred the draws that do not pass. -/
theorem frame_maintains {draws : List Draw} {start : FrameReport}
    (h : ∀ d ∈ draws, p.isDrawable d r = true → allowed d) :
    RenderPlan.Maintains P (p.frame renderer store r draws start)
      fun report => report = p.report r draws start := by
  refine .bind (.forM fun target _ => hrenderer.ensureTarget _ _) fun _ _ => ?_
  refine .bind (drawEach_maintains hrenderer h) fun report hreport => ?_
  refine .bind (.forM fun name _ => ?_) fun _ _ => .pure hreport
  cases p.targets.get? name with
  | none => exact .pure trivial
  | some target => exact hrenderer.readBack name target

end Plan

/-! ## Notes of what is drawn -/

/-- The computation on a backend beside which notes are kept. -/
def besideNotes {α ν : Type} (x : ExceptT ε (StateM σ) α) : ExceptT ε (StateM (σ × ν)) α :=
  ExceptT.mk fun (state, notes) =>
    let (result, state) := x.run.run state
    (result, (state, notes))

/-- The renderer with a note of every draw that it is asked to make, also when the draw fails. -/
def Renderer.noting (renderer : Renderer (ExceptT ε (StateM σ))) :
    Renderer (ExceptT ε (StateM (σ × List Plan.Draw))) where
  ensureTarget name target := besideNotes (renderer.ensureTarget name target)
  draw p d store := do
    modify fun (state, notes) => (state, notes ++ [d])
    besideNotes (renderer.draw p d store)
  readBack name target := besideNotes (renderer.readBack name target)

theorem besideNotes_maintains {α ν : Type} (P : ν → Prop) (x : ExceptT ε (StateM σ) α) :
    RenderPlan.Maintains (fun state => P state.2) (besideNotes x) fun _ => True :=
  fun _ hnotes => ⟨hnotes, fun _ _ => trivial⟩

/-- All notes are of allowed draws as long as only these are asked for. -/
theorem Renderer.noting_maintains (renderer : Renderer (ExceptT ε (StateM σ)))
    (allowed : Plan.Draw → Prop) :
    renderer.noting.Maintains (fun state => ∀ d ∈ state.2, allowed d) allowed where
  ensureTarget _ _ := besideNotes_maintains (fun notes => ∀ d ∈ notes, allowed d) _
  draw p d store hd := by
    refine .bind (Q := fun _ => True) (fun state hnotes => ⟨?_, fun _ _ => trivial⟩)
      fun _ _ => besideNotes_maintains (fun notes => ∀ d ∈ notes, allowed d) _
    exact List.forall_mem_append.mpr ⟨hnotes, List.forall_mem_singleton.mpr hd⟩
  readBack _ _ := besideNotes_maintains (fun notes => ∀ d ∈ notes, allowed d) _

/-- The first computation does what the second does, and keeps notes beside. -/
def Shadows {α ν : Type} (x : ExceptT ε (StateM (σ × ν)) α) (y : ExceptT ε (StateM σ) α) : Prop :=
  ∀ state notes, ∃ notes', x.run.run (state, notes) =
    ((y.run.run state).1, ((y.run.run state).2, notes'))

section Shadows

variable {α β ν : Type}

theorem besideNotes_shadows (x : ExceptT ε (StateM σ) α) : Shadows (ν := ν) (besideNotes x) x :=
  fun _ notes => ⟨notes, rfl⟩

theorem Shadows.pure (a : α) :
    Shadows (ν := ν) (Pure.pure a) (Pure.pure a : ExceptT ε (StateM σ) α) :=
  fun _ notes => ⟨notes, rfl⟩

theorem Shadows.bind {x : ExceptT ε (StateM (σ × ν)) α} {y : ExceptT ε (StateM σ) α}
    {f : α → ExceptT ε (StateM (σ × ν)) β} {g : α → ExceptT ε (StateM σ) β}
    (hxy : Shadows x y) (hfg : ∀ a, Shadows (f a) (g a)) : Shadows (x >>= f) (y >>= g) := by
  intro state notes
  obtain ⟨notes₁, hrun⟩ := hxy state notes
  rw [ExceptT.run_bind, StateT.run_bind, hrun, ExceptT.run_bind, StateT.run_bind]
  cases hy : y.run.run state with
  | mk result state₁ =>
    cases result with
    | ok a => exact hfg a state₁ notes₁
    | error e => exact ⟨notes₁, rfl⟩

theorem Shadows.forM {f : α → ExceptT ε (StateM (σ × ν)) PUnit}
    {g : α → ExceptT ε (StateM σ) PUnit} (h : ∀ x, Shadows (f x) (g x)) :
    ∀ xs : List α, Shadows (xs.forM f) (xs.forM g)
  | [] => .pure _
  | x :: xs => .bind (h x) fun _ => .forM h xs

end Shadows

namespace Plan

variable (renderer : Renderer (ExceptT ε (StateM σ))) (p : Plan) (store : UniformStore)
  (r : Residency)

theorem drawEach_noting_shadows : ∀ (draws : List Draw) (start : FrameReport),
    Shadows (p.drawEach renderer.noting store r draws start)
      (p.drawEach renderer store r draws start)
  | [], start => .pure start
  | d :: draws, start => by
    rw [drawEach, drawEach]
    cases p.isDrawable d r with
    | true =>
      refine .bind ?_ fun _ => drawEach_noting_shadows draws _
      exact fun state notes => ⟨notes ++ [d], rfl⟩
    | false => exact drawEach_noting_shadows draws _

/-- **Notes change nothing**: a frame with notes kept is the frame of the renderer itself. -/
theorem frame_noting_shadows (draws : List Draw) (start : FrameReport) :
    Shadows (p.frame renderer.noting store r draws start)
      (p.frame renderer store r draws start) := by
  refine .bind (.forM (fun target => besideNotes_shadows _) _) fun _ => ?_
  refine .bind (drawEach_noting_shadows renderer p store r draws start) fun report => ?_
  refine .bind (.forM (fun name => ?_) _) fun _ => .pure _
  cases p.targets.get? name with
  | none => exact .pure _
  | some target => exact besideNotes_shadows _

end Plan

end Frames

/-! ## Render loops -/

/-- A plan with what it was compiled from. -/
structure CompiledScene where
  scene : Scene
  catalogs : Catalogs
  index : TriggerIndex
  plan : Plan
  compiles : scene.compile catalogs index = .ok plan

namespace CompiledScene

/-- The draws of a frame: those of a trigger, or all. -/
def drawsOf (k : CompiledScene) : Option String → List Plan.Draw
  | none => k.plan.draws
  | some trigger => k.plan.drawsOnTrigger trigger

/-- The frame of a trigger, or of all draws. -/
def frame {m : Type → Type} [Monad m] (k : CompiledScene) (trigger : Option String)
    (renderer : Renderer m) (store : UniformStore) (r : Residency) : m FrameReport :=
  match trigger with
  | none => k.plan.drawAll renderer store r
  | some trigger => k.plan.drawOnTrigger trigger renderer store r

theorem frame_eq {m : Type → Type} [Monad m] (k : CompiledScene) (trigger : Option String)
    (renderer : Renderer m) (store : UniformStore) (r : Residency) :
    k.frame trigger renderer store r =
      k.plan.frame renderer store r (k.drawsOf trigger) { trigger } := by
  cases trigger <;> rfl

theorem mem_draws_of_mem_drawsOf {k : CompiledScene} {trigger : Option String} {d : Plan.Draw}
    (h : d ∈ k.drawsOf trigger) : d ∈ k.plan.draws := by
  cases trigger with
  | none => exact h
  | some trigger => exact (List.mem_filter.mp h).1

end CompiledScene

/-- A frame that was made. -/
structure FrameRecord (σ ε : Type) where
  compiled : CompiledScene
  /-- The trigger of the frame; absent when everything was to be drawn. -/
  trigger : Option String
  store : UniformStore
  /-- What was there while the frame was made. -/
  residency : Residency
  /-- The state of the backend before the frame. -/
  backend : σ
  /-- The draws that the renderer was asked to make, in order. -/
  asked : List Plan.Draw
  outcome : Except ε FrameReport

/-- A render loop: the traffic of resources, the state of the backend, and the frames made. -/
structure RenderLoop (σ ε : Type) where
  traffic : Traffic := {}
  backend : σ
  frames : List (FrameRecord σ ε) := []

namespace RenderLoop

variable {σ ε : Type}

/-- How a frame ends that the loop makes next: with its report or an error, the backend in a new
state, and the draws noted that the renderer was asked to make. -/
def runFrame (renderer : Renderer (ExceptT ε (StateM σ))) (l : RenderLoop σ ε)
    (compiled : CompiledScene) (trigger : Option String) (store : UniformStore) :
    Except ε FrameReport × σ × List Plan.Draw :=
  (compiled.frame trigger renderer.noting store l.traffic.residency).run.run (l.backend, [])

/-- The record of that frame. -/
def record (renderer : Renderer (ExceptT ε (StateM σ))) (l : RenderLoop σ ε)
    (compiled : CompiledScene) (trigger : Option String) (store : UniformStore) :
    FrameRecord σ ε where
  compiled
  trigger
  store
  residency := l.traffic.residency
  backend := l.backend
  asked := (l.runFrame renderer compiled trigger store).2.2
  outcome := (l.runFrame renderer compiled trigger store).1

/-- The loop after that frame. -/
def frame (renderer : Renderer (ExceptT ε (StateM σ))) (l : RenderLoop σ ε)
    (compiled : CompiledScene) (trigger : Option String) (store : UniformStore) :
    RenderLoop σ ε :=
  { l with
    backend := (l.runFrame renderer compiled trigger store).2.1
    frames := l.frames ++ [l.record renderer compiled trigger store] }

/-- One step of a render loop: resources are requested, arrive or are forgotten, or a frame is
made. -/
inductive Step (renderer : Renderer (ExceptT ε (StateM σ))) (l : RenderLoop σ ε) :
    RenderLoop σ ε → Prop where
  | traffic {t : Traffic} (h : l.traffic.Step t) : Step renderer l { l with traffic := t }
  | frame (compiled : CompiledScene) (trigger : Option String) (store : UniformStore) :
      Step renderer l (l.frame renderer compiled trigger store)

/-- The loop can come about when nothing is there at first, whatever the backend starts with. -/
def Reachable (renderer : Renderer (ExceptT ε (StateM σ))) (l : RenderLoop σ ε) : Prop :=
  ∃ backend, Relation.ReflTransGen (Step renderer) { backend } l

end RenderLoop

/-- **The frame drew what was ready**, judged by the catalogs: every item that it asked the renderer
to draw was ready, and none that it deferred was. It is the renderer's own frame, unchanged by the
notes that were kept. -/
structure FrameRecord.Exact {σ ε : Type} (renderer : Renderer (ExceptT ε (StateM σ)))
    (f : FrameRecord σ ε) : Prop where
  asked : ∀ d ∈ f.asked, d ∈ f.compiled.plan.draws ∧
    f.compiled.catalogs.ItemReady f.residency d.name
  deferred : ∀ report, f.outcome = .ok report → ∀ name ∈ report.deferred,
    name ∈ f.compiled.plan.itemOrder ∧ ¬f.compiled.catalogs.ItemReady f.residency name
  undisturbed : f.outcome =
    ((f.compiled.frame f.trigger renderer f.store f.residency).run.run f.backend).1

namespace RenderLoop

variable {σ ε : Type} {renderer : Renderer (ExceptT ε (StateM σ))} {l l' : RenderLoop σ ε}

theorem runFrame_eq (l : RenderLoop σ ε) (renderer : Renderer (ExceptT ε (StateM σ)))
    (compiled : CompiledScene) (trigger : Option String) (store : UniformStore) :
    l.runFrame renderer compiled trigger store =
      (compiled.plan.frame renderer.noting store l.traffic.residency (compiled.drawsOf trigger)
        { trigger }).run.run (l.backend, []) := by
  rw [runFrame, CompiledScene.frame_eq]

/-- A frame draws what is ready, and defers what is not. -/
theorem record_exact (compiled : CompiledScene) (trigger : Option String) (store : UniformStore) :
    (l.record renderer compiled trigger store).Exact renderer := by
  have hgate (d) (hd : d ∈ compiled.drawsOf trigger) :
      compiled.plan.isDrawable d l.traffic.residency = true ↔
        compiled.catalogs.ItemReady l.traffic.residency d.name :=
    Plan.isDrawable_iff_itemReady compiled.compiles (CompiledScene.mem_draws_of_mem_drawsOf hd)
  have hframe : Maintains
      (fun state : σ × List Plan.Draw => ∀ d ∈ state.2, d ∈ compiled.plan.draws ∧
        compiled.catalogs.ItemReady l.traffic.residency d.name)
      (compiled.plan.frame renderer.noting store l.traffic.residency (compiled.drawsOf trigger)
        { trigger })
      fun report => report =
        compiled.plan.report l.traffic.residency (compiled.drawsOf trigger) { trigger } :=
    Plan.frame_maintains (renderer.noting_maintains _) fun d hd hdrawable =>
      ⟨CompiledScene.mem_draws_of_mem_drawsOf hd, (hgate d hd).mp hdrawable⟩
  -- the notes start out empty, and a frame adds draws that pass the gate
  obtain ⟨hasked, hreport⟩ := hframe (l.backend, []) fun d hd => absurd hd List.not_mem_nil
  rw [← runFrame_eq] at hasked hreport
  refine ⟨hasked, fun report houtcome name hname => ?_, ?_⟩
  · rw [hreport report houtcome, Plan.deferred_report, List.nil_append] at hname
    obtain ⟨d, hd, rfl⟩ := List.mem_map.mp hname
    obtain ⟨hdraw, hdeferred⟩ := List.mem_filter.mp hd
    refine ⟨List.mem_map_of_mem (CompiledScene.mem_draws_of_mem_drawsOf hdraw), fun hready => ?_⟩
    rw [(hgate d hdraw).mpr hready] at hdeferred
    cases hdeferred
  · obtain ⟨notes, hrun⟩ := compiled.plan.frame_noting_shadows renderer store l.traffic.residency
      (compiled.drawsOf trigger) { trigger } l.backend []
    rw [record, runFrame_eq, hrun, CompiledScene.frame_eq]

/-- **Every step keeps the frames exact.** -/
theorem Step.frames_exact (hstep : Step renderer l l') (h : ∀ f ∈ l.frames, f.Exact renderer) :
    ∀ f ∈ l'.frames, f.Exact renderer := by
  cases hstep with
  | traffic _ => exact h
  | frame compiled trigger store =>
    exact List.forall_mem_append.mpr ⟨h, List.forall_mem_singleton.mpr (record_exact ..)⟩

theorem Reachable.frames_exact (h : l.Reachable renderer) : ∀ f ∈ l.frames, f.Exact renderer := by
  obtain ⟨backend, hsteps⟩ := h
  induction hsteps with
  | refl => exact fun f hf => absurd hf List.not_mem_nil
  | tail _ hstep ih => exact hstep.frames_exact ih

/-- **A render loop draws exactly what is ready.** A draw of a compiled plan passes the gate of the
plan exactly when the catalogs' declaration of its item has every input from the server there. So in
every render loop that can come about, whatever the renderer and whatever the order of requests,
arrivals, evictions and frames, no item is ever handed to the renderer while one of its inputs is
missing, and none is deferred whose inputs are all there. -/
theorem draws_exactly_what_is_ready {s : Scene} {c : Catalogs} {index : TriggerIndex} {p : Plan}
    (h : s.compile c index = .ok p) :
    (∀ d ∈ p.draws, ∀ r, p.isDrawable d r = true ↔ c.ItemReady r d.name) ∧
      ∀ {σ ε : Type} (renderer : Renderer (ExceptT ε (StateM σ))) (l : RenderLoop σ ε),
        l.Reachable renderer → ∀ f ∈ l.frames, f.Exact renderer :=
  ⟨fun _ hd _ => Plan.isDrawable_iff_itemReady h hd, fun _ _ hl => hl.frames_exact⟩

/-! ### A loop that draws before everything is there -/

/-- The scene that draws one item with a buffer and a texture from the server, and another that
needs neither. -/
def pickCompiled : CompiledScene where
  scene := pickScene
  catalogs := pickCatalogs
  index := .build pickCatalogs.items
  plan := pickPlan
  compiles := rfl

/-- The scene is activated, and its model arrives. -/
def earlyTraffic : RenderLoop (List RenderCall) DeviceLost where
  traffic := (({} : Traffic).activate pickPlan).2.note (.delivered ⟨.buffer, "points"⟩)
  backend := []

/-- Then everything is to be drawn. -/
def earlyLoop : RenderLoop (List RenderCall) DeviceLost :=
  earlyTraffic.frame (Renderer.tracing fun _ _ => false) pickCompiled none pickPlan.newStore

theorem earlyLoop_reachable : earlyLoop.Reachable (Renderer.tracing fun _ _ => false) :=
  ⟨[], .tail (.tail (.single (.traffic (.activate pickPlan)))
    (.traffic (.deliver ⟨.buffer, "points"⟩ (by decide))))
    (.frame pickCompiled none pickPlan.newStore)⟩

/-- The frame defers the item whose texture is still on its way, and draws the other one, which is
listed twice, both times. -/
theorem earlyLoop_draws :
    ∃ f ∈ earlyLoop.frames,
      (f.asked.map Plan.Draw.name = ["hits", "hits"] ∧
        pickCatalogs.ItemReady f.residency "hits") ∧
      ∃ report, f.outcome = .ok report ∧ report.deferred = ["dots"] ∧
        ¬pickCatalogs.ItemReady f.residency "dots" := by
  obtain ⟨-, hexact⟩ := draws_exactly_what_is_ready
    (show pickScene.compile pickCatalogs (.build pickCatalogs.items) = .ok pickPlan from rfl)
  let f := earlyTraffic.record (Renderer.tracing fun _ _ => false) pickCompiled none
    pickPlan.newStore
  have hmem : f ∈ earlyLoop.frames := List.mem_singleton.mpr rfl
  have hf := hexact _ earlyLoop earlyLoop_reachable f hmem
  have hasked : f.asked.map Plan.Draw.name = ["hits", "hits"] := by decide
  have houtcome : f.outcome = .ok ⟨none, ["hits", "hits"], ["dots"], ["hitmap"]⟩ := rfl
  refine ⟨f, hmem, ⟨hasked, ?_⟩, _, houtcome, rfl, ?_⟩
  · have hhits : "hits" ∈ f.asked.map Plan.Draw.name := by rw [hasked]; decide
    obtain ⟨d, hd, hname⟩ := List.mem_map.mp hhits
    exact hname ▸ (hf.asked d hd).2
  · exact (hf.deferred _ houtcome "dots" (List.mem_singleton.mpr rfl)).2

end RenderLoop

end RenderPlan
