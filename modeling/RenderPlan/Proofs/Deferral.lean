import RenderPlan.Frame.Trace
import RenderPlan.Proofs.PlanContents

/-!
# What a frame waits for

Compiling notes which models and textures of a plan come from the server, and activating the plan
requests them. A frame asks again, of every draw and every single reference, whether what comes from
the server has arrived. Both look at the same declarations, so a frame defers something exactly
while something that the plan asks for has not arrived.

## Main definitions

* `Plan.HasArrived`: every server resource of the plan is resident
* `Yields`, `Renderer.NeverFails`: calls that succeed in every state of the backend
* `Plan.report`: what a frame of given draws does when no call fails

## Main results

* `Plan.forall_isDrawable_iff`: every draw can be made when everything has arrived
* `Plan.frame_yields`: a renderer that never fails lets a frame end with its report
* `Holdings.mem_requestMissing`: activating requests what is neither there nor on its way
* `Plan.drawAll_complete_iff`: a frame defers nothing exactly when everything requested has arrived
-/

namespace RenderPlan

namespace Plan

/-! ## The gate of one draw -/

/-- Every model and texture that the plan asks the server for is resident. -/
def HasArrived (p : Plan) (r : Residency) : Prop :=
  (∀ model ∈ p.serverBuffers, model ∈ r.buffers.resident) ∧
    ∀ texture ∈ p.serverTextures, texture ∈ r.textures.resident

theorem bufferReady_iff {p : Plan} {r : Residency} {ref : AttributeRef} {buffer : Buffer}
    (h : attributeOf? p.models ref = some buffer) :
    p.bufferReady r ref = true ↔
      (buffer.origin.isServer = true → ref.model ∈ r.buffers.resident) := by
  rw [attributeOf?] at h
  rw [bufferReady, h]
  cases hserver : buffer.origin.isServer <;> simp [hserver]

theorem textureReady_iff {p : Plan} {r : Residency} {name : String} {texture : Texture}
    (h : p.textures.get? name = some texture) :
    p.textureReady r name = true ↔
      (texture.isServer = true → name ∈ r.textures.resident) := by
  rw [textureReady, h]
  cases hserver : texture.isServer <;> simp [hserver]

section Gate

variable {s : Scene} {c : Catalogs} {index : TriggerIndex} {rs : List ResolvedItem}

/-- **A draw can be made** when every server resource that its item uses is resident. -/
theorem isDrawable_ofItems_iff (hrs : ∀ item ∈ rs, item.FoundIn c) {item : ResolvedItem}
    (hitem : item ∈ rs) {d : Draw} (hd : d.item = item.item) (r : Residency) :
    (ofItems s index rs).isDrawable d r = true ↔
      (∀ use ∈ item.buffers, use.2.origin.isServer = true → use.1.model ∈ r.buffers.resident) ∧
        ∀ use ∈ item.textureUses, use.2.isServer = true → use.1 ∈ r.textures.resident := by
  have hfound := hrs item hitem
  have hbuffer (use) (huse : use ∈ item.buffers) :
      (ofItems s index rs).bufferReady r use.1 = true ↔
        (use.2.origin.isServer = true → use.1.model ∈ r.buffers.resident) :=
    bufferReady_iff ((models_ofItems hrs).mpr ⟨item, hitem, huse⟩)
  have htexture (use) (huse : use ∈ item.textureUses) :
      (ofItems s index rs).textureReady r use.1 = true ↔
        (use.2.isServer = true → use.1 ∈ r.textures.resident) :=
    textureReady_iff ((textures_ofItems hrs).mpr ⟨item, hitem, huse⟩)
  -- the gate looks the program up in the plan, which holds the one that the item was resolved with
  have hprogram : (ofItems s index rs).programs.get? item.item.program = some item.program :=
    (programs_ofItems hrs).mpr ⟨item, hitem, rfl⟩
  have hsampled : (ofItems s index rs).sampledBy d = item.samples.map Prod.fst := by
    rw [sampledBy, hd, hprogram, hfound.sampleNames]
  rw [isDrawable, hsampled, hd, ← hfound.bufferRefs, ← hfound.targetName, Bool.and_eq_true,
    Bool.and_eq_true, List.all_map, List.all_map, Option.all_map, List.all_eq_true,
    List.all_eq_true, and_assoc]
  refine and_congr (forall₂_congr hbuffer) ?_
  -- the gate asks for the samples and for the target, which together are the uses of textures
  rw [ResolvedItem.textureUses, List.forall_mem_append]
  refine and_congr (forall₂_congr fun use huse => ?_) ?_
  · exact htexture use (List.mem_append_left _ huse)
  · rw [Option.all_eq_true]
    simp only [Option.mem_toList]
    refine forall₂_congr fun use huse => ?_
    exact htexture use (List.mem_append_right _ (Option.mem_toList.mpr huse))

/-- **Every draw can be made** exactly when everything that the plan asks for has arrived. -/
theorem forall_isDrawable_iff {p : Plan} (h : s.compile c index = .ok p) (r : Residency) :
    (∀ d ∈ p.draws, p.isDrawable d r = true) ↔ p.HasArrived r := by
  obtain ⟨rs, -, hrs, rfl⟩ := Scene.compile_eq_ok_iff.mp h
  rw [draws_ofItems, List.forall_mem_map, HasArrived]
  simp only [mem_serverBuffers_ofItems, mem_serverTextures_ofItems]
  constructor
  · intro hdrawable
    constructor
    · rintro _ ⟨item, hitem, use, huse, hserver, rfl⟩
      have hgate := (isDrawable_ofItems_iff hrs hitem rfl r).mp (hdrawable item hitem)
      exact hgate.1 use huse hserver
    · rintro _ ⟨item, hitem, use, huse, hserver, rfl⟩
      have hgate := (isDrawable_ofItems_iff hrs hitem rfl r).mp (hdrawable item hitem)
      exact hgate.2 use huse hserver
  · rintro ⟨hbuffers, htextures⟩ item hitem
    refine (isDrawable_ofItems_iff hrs hitem rfl r).mpr ⟨fun use huse hserver => ?_, ?_⟩
    · exact hbuffers _ ⟨item, hitem, use, huse, hserver, rfl⟩
    · exact fun use huse hserver => htextures _ ⟨item, hitem, use, huse, hserver, rfl⟩

end Gate

end Plan

/-! ## Calls that succeed -/

section Yields

variable {σ ε α β : Type}

/-- The computation succeeds with `a` from every state. -/
def Yields (x : ExceptT ε (StateM σ) α) (a : α) : Prop :=
  ∀ state, ∃ state', x.run.run state = (.ok a, state')

theorem Yields.pure (a : α) : Yields (Pure.pure a : ExceptT ε (StateM σ) α) a :=
  fun state => ⟨state, rfl⟩

theorem Yields.bind {x : ExceptT ε (StateM σ) α} {f : α → ExceptT ε (StateM σ) β} {a : α} {b : β}
    (hx : Yields x a) (hf : Yields (f a) b) : Yields (x >>= f) b := by
  intro state
  obtain ⟨state₁, hx⟩ := hx state
  obtain ⟨state₂, hf⟩ := hf state₁
  refine ⟨state₂, ?_⟩
  rw [ExceptT.run_bind, StateT.run_bind, hx]
  exact hf

theorem Yields.forM {f : α → ExceptT ε (StateM σ) PUnit} :
    ∀ {xs : List α}, (∀ x ∈ xs, Yields (f x) ⟨⟩) → Yields (xs.forM f) ⟨⟩
  | [], _ => .pure _
  | x :: xs, h => by
    rw [List.forall_mem_cons] at h
    exact .bind h.1 (.forM h.2)

end Yields

variable {σ ε : Type}

/-- No call of the renderer fails, whatever state its backend is in. -/
structure Renderer.NeverFails (renderer : Renderer (ExceptT ε (StateM σ))) : Prop where
  ensureTarget : ∀ name target, Yields (renderer.ensureTarget name target) ()
  draw : ∀ p d store, Yields (renderer.draw p d store) ()
  readBack : ∀ name target, Yields (renderer.readBack name target) ()

/-- A tracing renderer that is never told to fail does not. -/
theorem Renderer.tracing_neverFails :
    (Renderer.tracing fun _ _ => false).NeverFails where
  ensureTarget name _ calls := ⟨calls ++ [.ensureTarget name], rfl⟩
  draw _ d store calls := ⟨calls ++ [.draw d.name (store.uploads d.name)], rfl⟩
  readBack name _ calls := ⟨calls ++ [.readBack name], rfl⟩

namespace Plan

/-! ## Frames in which no call fails -/

/-- The report after the given draws, each made or deferred. -/
def report (p : Plan) (r : Residency) (draws : List Draw) (start : FrameReport) : FrameReport :=
  draws.foldl
    (fun report d => if p.isDrawable d r then report.drew d else report.postpone d) start

theorem deferred_report (p : Plan) (r : Residency) (draws : List Draw) (start : FrameReport) :
    (p.report r draws start).deferred =
      start.deferred ++ (draws.filter fun d => !p.isDrawable d r).map Draw.name := by
  induction draws generalizing start with
  | nil => simp [report]
  | cons d draws ih =>
    rw [report, List.foldl_cons, ← report, ih]
    -- a draw that is made adds nothing to the list, one that is put off adds its name
    cases hdrawable : p.isDrawable d r <;>
      simp [hdrawable, FrameReport.drew, FrameReport.postpone]

variable {renderer : Renderer (ExceptT ε (StateM σ))} (hrenderer : renderer.NeverFails)
include hrenderer

theorem drawEach_yields (p : Plan) (store : UniformStore) (r : Residency) :
    ∀ (draws : List Draw) (start : FrameReport),
      Yields (p.drawEach renderer store r draws start) (p.report r draws start)
  | [], start => .pure start
  | d :: draws, start => by
    rw [drawEach, report, List.foldl_cons]
    cases p.isDrawable d r with
    | true => exact .bind (hrenderer.draw p d store) (drawEach_yields p store r draws _)
    | false => exact drawEach_yields p store r draws _

/-- **A frame ends with its report** when no call fails. -/
theorem frame_yields (p : Plan) (store : UniformStore) (r : Residency) (draws : List Draw)
    (start : FrameReport) :
    Yields (p.frame renderer store r draws start) (p.report r draws start) := by
  -- targets are set up, then each draw is made or deferred, then targets are read back
  refine .bind (.forM fun target _ => hrenderer.ensureTarget _ _) ?_
  refine .bind (drawEach_yields hrenderer p store r draws start) ?_
  refine .bind (.forM fun name _ => ?_) (.pure _)
  cases p.targets.get? name with
  | none => exact .pure _
  | some target => exact hrenderer.readBack name target

omit hrenderer in
theorem deferred_report_eq_nil_iff {p : Plan} {r : Residency} {draws : List Draw} :
    (p.report r draws {}).deferred = [] ↔ ∀ d ∈ draws, p.isDrawable d r = true := by
  rw [deferred_report, List.nil_append, List.map_eq_nil_iff, List.filter_eq_nil_iff]
  simp only [Bool.not_eq_true', Bool.not_eq_false]

end Plan

/-! ## Requests -/

section Requests

variable {τ : Type}

theorem Holdings.isMissing_iff {h : Holdings} {name : String} :
    h.isMissing name = true ↔ name ∉ h.resident ∧ name ∉ h.pending := by
  simp [isMissing, Bool.eq_false_iff]

theorem Holdings.isMissing_await {h : Holdings} {name other : String} :
    (h.await other).isMissing name = true ↔ h.isMissing name = true ∧ name ≠ other := by
  rw [isMissing_iff, isMissing_iff, await, NameSet.mem_insert, not_or, and_assoc]
  exact and_congr_right fun _ => and_comm

/-- **The requests** of an activation are for the names that are neither there nor on their way. -/
theorem Holdings.mem_requestMissing {send : String → StateM τ Unit} {name : String} :
    ∀ {names : List String} {h : Holdings} {t : τ},
      name ∈ ((requestMissing send names h).run t).1.1 ↔
        name ∈ names ∧ h.isMissing name = true
  | [], h, t => by
    show name ∈ [] ↔ _
    simp
  | other :: names, h, t => by
    rw [requestMissing]
    cases hmissing : h.isMissing other with
    | false =>
      rw [if_neg Bool.false_ne_true, mem_requestMissing, List.mem_cons]
      refine and_congr_left fun h => ?_
      rw [or_iff_right]
      rintro rfl
      rw [hmissing] at h
      cases h
    | true =>
      -- a name that is listed twice is on its way when it is met again
      show name ∈ other :: ((requestMissing send names (h.await other)).run _).1.1 ↔ _
      rw [List.mem_cons, mem_requestMissing, isMissing_await, List.mem_cons]
      constructor
      · rintro (rfl | ⟨hname, h, -⟩)
        · exact ⟨.inl rfl, hmissing⟩
        · exact ⟨.inr hname, h⟩
      · rintro ⟨hname, h⟩
        by_cases heq : name = other
        · exact .inl heq
        · exact .inr ⟨hname.resolve_left heq, h, heq⟩

/-- Everything that was there or on its way has arrived. -/
def Residency.SettledIn (before r : Residency) : Prop :=
  (∀ model, before.buffers.isMissing model = false → model ∈ r.buffers.resident) ∧
    ∀ texture, before.textures.isMissing texture = false → texture ∈ r.textures.resident

/-- Everything that was requested has arrived. -/
def Activation.ArrivedIn (a : Activation) (r : Residency) : Prop :=
  (∀ model ∈ a.buffers, model ∈ r.buffers.resident) ∧
    ∀ texture ∈ a.textures, texture ∈ r.textures.resident

variable {p : Plan} {fetcher : Fetcher (StateM τ)} {before : Residency} {t : τ}

/-- An activation requests the names of the plan that are neither there nor on their way. -/
theorem Plan.mem_activate_buffers {model : String} :
    model ∈ ((p.activate fetcher before).run t).1.1.buffers ↔
      model ∈ p.serverBuffers ∧ before.buffers.isMissing model = true := by
  rw [← NameSet.mem_toList]
  exact Holdings.mem_requestMissing

theorem Plan.mem_activate_textures {texture : String} :
    texture ∈ ((p.activate fetcher before).run t).1.1.textures ↔
      texture ∈ p.serverTextures ∧ before.textures.isMissing texture = true := by
  rw [← NameSet.mem_toList]
  exact Holdings.mem_requestMissing

/-- **What a plan asks for has arrived** when what was requested has, unless something else is
still on its way since before. -/
theorem Plan.hasArrived_of_arrivedIn {r : Residency} (hsettled : before.SettledIn r)
    (harrived : ((p.activate fetcher before).run t).1.1.ArrivedIn r) : p.HasArrived r := by
  constructor
  -- a model that the plan asks for was there or on its way before, or it was requested
  · intro model hmodel
    cases hmissing : before.buffers.isMissing model with
    | false => exact hsettled.1 model hmissing
    | true => exact harrived.1 model (mem_activate_buffers.mpr ⟨hmodel, hmissing⟩)
  · intro texture htexture
    cases hmissing : before.textures.isMissing texture with
    | false => exact hsettled.2 texture hmissing
    | true => exact harrived.2 texture (mem_activate_textures.mpr ⟨htexture, hmissing⟩)

theorem Plan.HasArrived.arrivedIn {r : Residency} (h : p.HasArrived r) :
    ((p.activate fetcher before).run t).1.1.ArrivedIn r :=
  ⟨fun _ hmodel => h.1 _ (mem_activate_buffers.mp hmodel).1,
    fun _ htexture => h.2 _ (mem_activate_textures.mp htexture).1⟩

end Requests

/-- **A frame waits for what was requested.** The frame of every draw of a compiled plan, made by a
renderer that never fails, defers nothing exactly when every resource that the plan asks the server
for is resident. So nothing is deferred once all requests of an activation have arrived, and
something is as long as one of them has not. -/
theorem Plan.drawAll_complete_iff {s : Scene} {c : Catalogs} {index : TriggerIndex} {p : Plan}
    (hp : s.compile c index = .ok p) {renderer : Renderer (ExceptT ε (StateM σ))}
    (hrenderer : renderer.NeverFails) (store : UniformStore) (r : Residency) (state : σ) :
    ∃ report state', (p.drawAll renderer store r).run.run state = (.ok report, state') ∧
      (report.deferred = [] ↔
        (∀ model ∈ p.serverBuffers, model ∈ r.buffers.resident) ∧
          ∀ texture ∈ p.serverTextures, texture ∈ r.textures.resident) ∧
      ∀ (τ : Type) (fetcher : Fetcher (StateM τ)) (before : Residency) (t : τ),
        let activation := ((p.activate fetcher before).run t).1.1
        (report.deferred = [] → activation.ArrivedIn r) ∧
          (before.SettledIn r → activation.ArrivedIn r → report.deferred = []) := by
  obtain ⟨state', hframe⟩ := frame_yields hrenderer p store r p.draws {} state
  have hcomplete := deferred_report_eq_nil_iff.trans (forall_isDrawable_iff hp r)
  refine ⟨_, state', hframe, hcomplete, fun τ fetcher before t => ?_⟩
  refine ⟨fun h => ?_, fun hsettled h => ?_⟩
  · exact (hcomplete.mp h).arrivedIn
  · exact hcomplete.mpr (hasArrived_of_arrivedIn hsettled h)

/-! ### A scene that waits for a model and a texture -/

/-- Catalogs with one item, which takes its points and a texture from the server. -/
def dotCatalogs : Catalogs where
  programs := NameTable.empty.insert "dots" ⟨["position"], ["hits"]⟩
  models := NameTable.empty.insert "points"
    (NameTable.empty.insert "xy" ⟨.serverHost, ⟨.float, 2, false⟩⟩)
  textures := NameTable.empty.insert "hitmap" ⟨.server, .zero⟩
  items := NameTable.empty.insert "drawDots"
    { program := "dots"
      primitive := .points
      bindings := NameTable.empty.insert "position" ⟨"points", "xy"⟩
      textureBindings := NameTable.empty.insert "hits" "hitmap" }

/-- The scene that draws the item. -/
def dotScene : Scene := { name := "dots", render := ["drawDots"] }

/-- The plan of the scene. -/
def dotPlan : Plan :=
  (dotScene.compile dotCatalogs (.build dotCatalogs.items)).toOption.get rfl

/-- Its frame defers the item while the texture has not arrived. -/
theorem Plan.drawAll_deferred_dots :
    ∃ report calls,
      (dotPlan.drawAll (Renderer.tracing fun _ _ => false) dotPlan.newStore
        { buffers := { resident := NameSet.empty.insert "points" } }).run.run [] =
          (.ok report, calls) ∧
      report.deferred ≠ [] := by
  obtain ⟨report, calls, hrun, hcomplete, -⟩ :=
    drawAll_complete_iff (show dotScene.compile dotCatalogs (.build dotCatalogs.items) = .ok dotPlan
      from rfl) Renderer.tracing_neverFails dotPlan.newStore
      { buffers := { resident := NameSet.empty.insert "points" } } []
  refine ⟨report, calls, hrun, fun h => ?_⟩
  exact NameSet.not_mem_empty _ ((hcomplete.mp h).2 "hitmap" (by decide))

end RenderPlan
