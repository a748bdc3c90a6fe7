import RenderPlan.Proofs.PlanResources
import RenderPlan.Proofs.RenderLoop
import RenderPlan.Proofs.TriggerLists

/-!
# The calls of a frame

A frame hands its renderer a sequence of calls that is settled before the first of them is made:
every target of the plan, then the draws that pass the gate, then the targets that these draws ask
to have read back. What the renderer answers decides only how far the sequence is made. So in any
monad a frame is its sequence of calls followed by its report, and a frame whose renderer fails has
made the calls up to the one that failed.

## Main definitions

* `FrameCall`: one call with everything that the renderer is handed
* `Plan.frameCalls`: the calls of a frame that makes the given draws and read-backs
* `Renderer.recording`: the renderer with a record of the calls that it takes
* `Renderer.Runs`: calls taken in turn until one of them fails

## Main results

* `Plan.frame_eq`: a frame is its calls and then its report
* `Renderer.exists_runs`: what is recorded of any calls
* `CompiledScene.frame_trace`: the calls of a frame of a compiled plan, and its report
-/

namespace RenderPlan

/-- One call of a renderer, with everything that it is handed. -/
inductive FrameCall where
  | ensureTarget (name : String) (target : Plan.Target)
  | draw (p : Plan) (d : Plan.Draw) (store : UniformStore)
  | readBack (name : String) (target : Plan.Target)

/-- The renderer takes a call. -/
def Renderer.take {m : Type → Type} (renderer : Renderer m) : FrameCall → m Unit
  | .ensureTarget name target => renderer.ensureTarget name target
  | .draw p d store => renderer.draw p d store
  | .readBack name target => renderer.readBack name target

namespace Plan

/-- The texture that a draw asks to have read back. -/
def Draw.readBack? (d : Draw) : Option String :=
  if d.item.readsTarget then d.item.targetTexture? else none

/-- The calls of a frame that makes the given draws and reads the given targets back. -/
def frameCalls (p : Plan) (store : UniformStore) (drawn : List Draw)
    (reads : List (String × Target)) : List FrameCall :=
  p.targets.entries.map (fun target => .ensureTarget target.1 target.2) ++
    drawn.map (fun d => .draw p d store) ++ reads.map fun target => .readBack target.1 target.2

/-- The targets of a plan that go by the given names. -/
def readBackSlots (p : Plan) (names : List String) : List (String × Target) :=
  names.filterMap fun name => (p.targets.get? name).map fun target => (name, target)

/-! ## The report of a frame -/

theorem readBack_drew (report : FrameReport) (d : Draw) :
    (report.drew d).readBack = d.readBack?.toList.foldl appendOnce report.readBack := by
  rw [FrameReport.drew, Draw.readBack?]
  cases d.item.targetTexture? <;> cases d.item.readsTarget <;> rfl

/-- **The report** lists the draws that are made and those that are not, and what the former ask to
have read back. -/
theorem report_eq (p : Plan) (r : Residency) (draws : List Draw) (start : FrameReport) :
    p.report r draws start =
      { trigger := start.trigger
        drawn := start.drawn ++ (draws.filter fun d => p.isDrawable d r).map Draw.name
        deferred := start.deferred ++ (draws.filter fun d => !p.isDrawable d r).map Draw.name
        readBack := ((draws.filter fun d => p.isDrawable d r).filterMap Draw.readBack?).foldl
          appendOnce start.readBack } := by
  induction draws generalizing start with
  | nil => simp [report]
  | cons d draws ih =>
    rw [report, List.foldl_cons, ← report, ih]
    cases hdrawable : p.isDrawable d r with
    | false => simp [hdrawable, FrameReport.postpone]
    | true =>
      rw [if_pos rfl, readBack_drew]
      cases hreadBack : d.readBack? <;> simp [hdrawable, hreadBack, FrameReport.drew]

/-! ## A frame as a sequence of calls -/

section Lawful

variable {m : Type → Type} [Monad m] [LawfulMonad m] (p : Plan) (renderer : Renderer m)
  (store : UniformStore) (r : Residency)

theorem drawEach_eq (draws : List Draw) (start : FrameReport) :
    p.drawEach renderer store r draws start =
      forM ((draws.filter fun d => p.isDrawable d r).map fun d => FrameCall.draw p d store)
        renderer.take >>= fun _ => pure (p.report r draws start) := by
  induction draws generalizing start with
  | nil => simp [drawEach, report]
  | cons d draws ih =>
    rw [drawEach, report, List.foldl_cons, ← report]
    cases hdrawable : p.isDrawable d r with
    | false => simp [hdrawable, ih]
    | true => simp [hdrawable, ih, Renderer.take]

theorem forM_readBackSlots (names : List String) :
    (forM names fun name => match p.targets.get? name with
      | none => pure ()
      | some target => renderer.readBack name target) =
      forM ((p.readBackSlots names).map fun slot => FrameCall.readBack slot.1 slot.2)
        renderer.take := by
  induction names with
  | nil => rfl
  | cons name names ih =>
    rw [List.forM_cons, ih]
    cases htarget : p.targets.get? name with
    | none => simp [readBackSlots, htarget]
    | some target => simp [readBackSlots, htarget, Renderer.take]

/-- **A frame is its calls and then its report**, whatever the calls do. -/
theorem frame_eq (draws : List Draw) (start : FrameReport) :
    p.frame renderer store r draws start =
      forM (p.frameCalls store (draws.filter fun d => p.isDrawable d r)
        (p.readBackSlots (p.report r draws start).readBack)) renderer.take >>=
          fun _ => pure (p.report r draws start) := by
  have htargets : (forM p.targets.entries fun target => renderer.ensureTarget target.1 target.2) =
      forM (p.targets.entries.map fun target => FrameCall.ensureTarget target.1 target.2)
        renderer.take := by
    simp [List.forM_map, Renderer.take]
  rw [frame, drawEach_eq, frameCalls, List.forM_append, List.forM_append, ← htargets]
  simp only [List.forM_eq_forM, bind_assoc, pure_bind]
  -- both sides agree but for the last loop
  exact bind_congr fun _ => bind_congr fun _ =>
    congrArg (· >>= _) (p.forM_readBackSlots renderer (p.report r draws start).readBack)

end Lawful

end Plan

/-! ## Calls in turn -/

section Runs

variable {σ ε : Type}

/-- The renderer with a record of the calls that it takes, of the failing one, too. -/
def Renderer.recording (renderer : Renderer (ExceptT ε (StateM σ))) :
    Renderer (ExceptT ε (StateM (σ × List FrameCall))) where
  ensureTarget name target := recorded (.ensureTarget name target)
  draw p d store := recorded (.draw p d store)
  readBack name target := recorded (.readBack name target)
where
  /-- Notes a call and takes it. -/
  recorded (call : FrameCall) : ExceptT ε (StateM (σ × List FrameCall)) Unit := do
    modify fun (state, calls) => (state, calls ++ [call])
    besideNotes (renderer.take call)

namespace Renderer

variable {renderer : Renderer (ExceptT ε (StateM σ))} {calls made : List FrameCall}
  {call : FrameCall} {state after : σ} {result : Except ε Unit} {e : ε}

theorem run_take_recording (call : FrameCall) (state : σ) (record : List FrameCall) :
    (renderer.recording.take call).run.run (state, record) =
      (((renderer.take call).run.run state).1,
        (((renderer.take call).run.run state).2, record ++ [call])) := by
  cases call <;> rfl

/-- **Calls taken in turn** from a state of the backend: the calls that were made, how they ended,
and the state after. The first call that fails is the last one made. -/
inductive Runs (renderer : Renderer (ExceptT ε (StateM σ))) :
    List FrameCall → σ → List FrameCall → Except ε Unit → σ → Prop where
  | done {state : σ} : Runs renderer [] state [] (.ok ()) state
  | made {call : FrameCall} {calls made : List FrameCall} {state reached after : σ}
      {result : Except ε Unit} (hcall : (renderer.take call).run.run state = (.ok (), reached))
      (hcalls : Runs renderer calls reached made result after) :
      Runs renderer (call :: calls) state (call :: made) result after
  | failed {call : FrameCall} {calls : List FrameCall} {state after : σ} {e : ε}
      (hcall : (renderer.take call).run.run state = (.error e, after)) :
      Runs renderer (call :: calls) state [call] (.error e) after

namespace Runs

theorem isPrefix (h : renderer.Runs calls state made result after) : made <+: calls := by
  induction h with
  | done => exact List.prefix_rfl
  | made _ _ ih => exact (List.prefix_cons_inj _).mpr ih
  | failed _ => exact List.cons_prefix_cons.mpr ⟨rfl, List.nil_prefix⟩

theorem made_eq (h : renderer.Runs calls state made (.ok ()) after) : made = calls := by
  generalize hresult : Except.ok () = result at h
  induction h with
  | done => rfl
  | made _ _ ih => rw [ih hresult]
  | failed _ => cases hresult

/-- What calls taken in turn come to. -/
theorem run_forM (h : renderer.Runs calls state made result after) :
    (forM calls renderer.take).run.run state = (result, after) := by
  induction h with
  | done => rfl
  | made hcall _ ih =>
    rw [List.forM_cons, ExceptT.run_bind, StateT.run_bind, hcall]
    exact ih
  | failed hcall =>
    rw [List.forM_cons, ExceptT.run_bind, StateT.run_bind, hcall]
    rfl

/-- **A failure** is that of the last call made, all others having succeeded. -/
theorem last_failed (h : renderer.Runs calls state made (.error e) after) :
    ∃ before call reached, made = before ++ [call] ∧
      (forM before renderer.take).run.run state = (.ok (), reached) ∧
      (renderer.take call).run.run reached = (.error e, after) := by
  generalize hresult : Except.error e = result at h
  induction h with
  | done => cases hresult
  | @made call _ _ state _ _ _ hcall _ ih =>
    obtain ⟨before, last, reached, rfl, hbefore, hlast⟩ := ih hresult
    refine ⟨call :: before, last, reached, rfl, ?_, hlast⟩
    rw [List.forM_cons, ExceptT.run_bind, StateT.run_bind, hcall]
    exact hbefore
  | @failed call _ state _ _ hcall =>
    cases hresult
    exact ⟨[], call, state, rfl, rfl, hcall⟩

end Runs

/-- **What is recorded** of any calls is what was made of them, and the record disturbs nothing. -/
theorem exists_runs (renderer : Renderer (ExceptT ε (StateM σ))) (calls : List FrameCall)
    (state : σ) (record : List FrameCall) :
    ∃ made result after, renderer.Runs calls state made result after ∧
      (forM calls renderer.recording.take).run.run (state, record) =
        (result, (after, record ++ made)) := by
  induction calls generalizing state record with
  | nil => exact ⟨[], .ok (), state, .done, by rw [List.append_nil]; rfl⟩
  | cons call calls ih =>
    rw [List.forM_cons, ExceptT.run_bind, StateT.run_bind, run_take_recording]
    cases hcall : (renderer.take call).run.run state with
    | mk result reached =>
      cases result with
      | error e => exact ⟨[call], .error e, reached, .failed hcall, rfl⟩
      | ok _ =>
        obtain ⟨made, result, after, hruns, hrun⟩ := ih reached (record ++ [call])
        refine ⟨call :: made, result, after, .made hcall hruns, hrun.trans ?_⟩
        rw [List.append_assoc, List.singleton_append]

end Renderer

end Runs

/-! ## Frames of compiled plans -/

/-- The first list has the names of the second, each once, in the order in which they first occur
there. -/
structure ListsOnce (firsts names : List String) : Prop where
  mem_iff : ∀ name, name ∈ firsts ↔ name ∈ names
  nodup : firsts.Nodup
  order : firsts.Pairwise fun a b => names.idxOf a < names.idxOf b

theorem listsOnce_firstOccurrences (names : List String) :
    ListsOnce (firstOccurrences names) names := by
  have horder : (firstOccurrences names).Pairwise
      fun a b => names.idxOf a < names.idxOf b := by
    have h := pairwise_idxOf_firstOccurrences names fun _ => true
    rwa [List.filter_true] at h
  exact ⟨fun name => mem_firstOccurrences, nodup_firstOccurrences names, horder⟩

namespace Plan

theorem Draw.readBack?_eq_some_iff {d : Draw} {name : String} :
    d.readBack? = some name ↔ d.item.DrawsInto name ∧ d.item.readsTarget = true := by
  rw [readBack?, Option.ite_none_right_eq_some, Catalogs.targetTexture?_eq_some_iff, and_comm,
    Item.DrawsInto]

theorem mem_readBackSlots {p : Plan} {names : List String} {slot : String × Target}
    (h : slot ∈ p.readBackSlots names) :
    slot.1 ∈ names ∧ p.targets.get? slot.1 = some slot.2 := by
  obtain ⟨name, hname, hslot⟩ := List.mem_filterMap.mp h
  obtain ⟨target, htarget, rfl⟩ := Option.map_eq_some_iff.mp hslot
  exact ⟨hname, htarget⟩

/-- No name is left out for which the plan has a target. -/
theorem map_fst_readBackSlots {p : Plan} {names : List String}
    (h : ∀ name ∈ names, ∃ target, p.targets.get? name = some target) :
    (p.readBackSlots names).map Prod.fst = names := by
  induction names with
  | nil => rfl
  | cons name names ih =>
    obtain ⟨⟨target, htarget⟩, hnames⟩ := List.forall_mem_cons.mp h
    have hrest : ((p.readBackSlots names).map Prod.fst) = names := ih hnames
    rw [readBackSlots] at hrest ⊢
    rw [List.filterMap_cons, htarget]
    simp only [Option.map_some, List.map_cons, hrest]

/-- Every draw of a compiled plan that asks for its target to be read back has a target that is to
be read back. -/
theorem exists_target_of_readBack? {s : Scene} {c : Catalogs} {index : TriggerIndex} {p : Plan}
    (h : s.compile c index = .ok p) {d : Draw} (hd : d ∈ p.draws) {name : String}
    (hname : d.readBack? = some name) :
    ∃ target, p.targets.get? name = some target ∧ target.readBack = true :=
  exists_target_of_readsBack h
    ⟨d.item, draws_of_mem_draws h hd, Draw.readBack?_eq_some_iff.mp hname⟩

end Plan

theorem run_bind_pure {σ ε α β : Type} (x : ExceptT ε (StateM σ) α) (b : β) (state : σ) :
    (x >>= fun _ => pure b).run.run state =
      ((x.run.run state).1.map fun _ => b, (x.run.run state).2) := by
  rw [ExceptT.run_bind, StateT.run_bind]
  cases x.run.run state with
  | mk result after => cases result <;> rfl

namespace CompiledScene

variable {σ ε : Type} (k : CompiledScene) (trigger : Option String)
  (renderer : Renderer (ExceptT ε (StateM σ))) (store : UniformStore) (r : Residency)

/-- The draws of a frame that are made. -/
def drawn : List Plan.Draw := (k.drawsOf trigger).filter fun d => k.plan.isDrawable d r

/-- The draws of a frame that are put off. -/
def deferred : List Plan.Draw := (k.drawsOf trigger).filter fun d => !k.plan.isDrawable d r

/-- The report of a frame in which no call fails. -/
def fullReport : FrameReport where
  trigger
  drawn := (k.drawn trigger r).map Plan.Draw.name
  deferred := (k.deferred trigger r).map Plan.Draw.name
  readBack := firstOccurrences ((k.drawn trigger r).filterMap Plan.Draw.readBack?)

/-- The calls of a frame in which none fails. -/
def frameCalls : List FrameCall :=
  k.plan.frameCalls store (k.drawn trigger r)
    (k.plan.readBackSlots (k.fullReport trigger r).readBack)

theorem report_eq_fullReport :
    k.plan.report r (k.drawsOf trigger) { trigger } = k.fullReport trigger r :=
  Plan.report_eq ..

/-- **A frame** is its calls and then its report. -/
theorem frame_eq_forM {m : Type → Type} [Monad m] [LawfulMonad m] (renderer : Renderer m) :
    k.frame trigger renderer store r =
      forM (k.frameCalls trigger store r) renderer.take >>=
        fun _ => pure (k.fullReport trigger r) := by
  rw [frame_eq, Plan.frame_eq, report_eq_fullReport]
  rfl

/-- **A recorded frame** has made its calls in turn until one failed. -/
theorem exists_runs_frame (state : σ) :
    ∃ made result after, renderer.Runs (k.frameCalls trigger store r) state made result after ∧
      (k.frame trigger renderer.recording store r).run.run (state, []) =
        (result.map fun _ => k.fullReport trigger r, (after, made)) ∧
      (k.frame trigger renderer store r).run.run state =
        (result.map fun _ => k.fullReport trigger r, after) := by
  obtain ⟨made, result, after, hruns, hrun⟩ :=
    renderer.exists_runs (k.frameCalls trigger store r) state []
  refine ⟨made, result, after, hruns, ?_, ?_⟩
  · rw [frame_eq_forM, run_bind_pure, hrun, List.nil_append]
  · rw [frame_eq_forM, run_bind_pure, hruns.run_forM]

/-- What a frame has read back are targets that are to be read back. -/
theorem exists_target_of_mem_readBack {name : String}
    (hname : name ∈ (k.fullReport trigger r).readBack) :
    ∃ target, k.plan.targets.get? name = some target ∧ target.readBack = true := by
  obtain ⟨d, hd, hwanted⟩ := List.mem_filterMap.mp (mem_firstOccurrences.mp hname)
  have hdraw : d ∈ k.plan.draws := mem_draws_of_mem_drawsOf (List.mem_filter.mp hd).1
  exact Plan.exists_target_of_readBack? k.compiles hdraw hwanted

/-- **The trace of a frame.** Whatever the renderer does, the calls that a frame makes of it are the
first of a sequence that is known beforehand: all targets of the plan in the order of their names,
the draws of the frame that pass the gate, in order, and the targets that these ask to have read
back, each once, in the order of the first draw that asks. The calls end with the first one that
fails, whose error is that of the frame, and are the whole sequence if none fails. Then the report
lists the draws made and those put off, which are all draws of the frame, and the targets read back,
which are targets of the plan that are to be read back. Every texture that is drawn into is among
the targets that come first. -/
theorem frame_trace (state : σ) :
    ∃ (outcome : Except ε FrameReport) (after : σ) (made : List FrameCall)
      (reads : List (String × Plan.Target)),
      let drawn := k.drawn trigger r
      let calls := k.plan.targets.entries.map (fun target => .ensureTarget target.1 target.2) ++
        drawn.map (fun d => .draw k.plan d store) ++
        reads.map fun target => FrameCall.readBack target.1 target.2
      ((k.frame trigger renderer store r).run.run state = (outcome, after) ∧
        (k.frame trigger renderer.recording store r).run.run (state, []) =
          (outcome, (after, made))) ∧
      (ListsOnce (reads.map Prod.fst) (drawn.filterMap Plan.Draw.readBack?) ∧
        ∀ read ∈ reads, k.plan.targets.get? read.1 = some read.2 ∧ read.2.readBack = true) ∧
      made <+: calls ∧
      (∀ e, outcome = .error e → ∃ before call reached, made = before ++ [call] ∧
        (forM before renderer.take).run.run state = (.ok (), reached) ∧
        (renderer.take call).run.run reached = (.error e, after)) ∧
      (∀ report, outcome = .ok report → made = calls ∧
        (forM calls renderer.take).run.run state = (.ok (), after) ∧
        report = ⟨trigger, drawn.map Plan.Draw.name,
          (k.deferred trigger r).map Plan.Draw.name, reads.map Prod.fst⟩) ∧
      (drawn ++ k.deferred trigger r).Perm (k.drawsOf trigger) ∧
      ∀ d ∈ drawn, ∀ name, d.item.DrawsInto name → name ∈ k.plan.targets.keys := by
  have hslots : (k.plan.readBackSlots (k.fullReport trigger r).readBack).map Prod.fst =
      (k.fullReport trigger r).readBack :=
    Plan.map_fst_readBackSlots fun name hname =>
      (k.exists_target_of_mem_readBack trigger r hname).imp fun _ h => h.1
  -- of the renderer it is used only that the calls are made in turn up to the first that fails
  obtain ⟨made, result, after, hruns, hrecorded, hplain⟩ :=
    k.exists_runs_frame trigger renderer store r state
  refine ⟨_, after, made, k.plan.readBackSlots (k.fullReport trigger r).readBack,
    ⟨hplain, hrecorded⟩, ⟨?_, fun read hread => ?_⟩, hruns.isPrefix, fun e he => ?_,
    fun report hreport => ?_, List.filter_append_perm _ _, fun d hd name hinto => ?_⟩
  · rw [hslots]
    exact listsOnce_firstOccurrences _
  · obtain ⟨hname, htarget⟩ := Plan.mem_readBackSlots hread
    obtain ⟨target, hget, hreadBack⟩ := k.exists_target_of_mem_readBack trigger r hname
    obtain rfl : read.2 = target := Option.some.inj (htarget.symm.trans hget)
    exact ⟨htarget, hreadBack⟩
  · obtain rfl : result = .error e := map_eq_error_iff.mp he
    exact hruns.last_failed
  · obtain ⟨_, rfl, rfl⟩ := map_eq_ok_iff.mp hreport
    refine ⟨hruns.made_eq, hruns.run_forM, ?_⟩
    rw [hslots]
    rfl
  · have hdraw : d ∈ k.plan.draws := mem_draws_of_mem_drawsOf (List.mem_filter.mp hd).1
    exact ((Plan.lists_keys_targets k.compiles).mem_iff name).mpr
      ⟨d.item, Plan.draws_of_mem_draws k.compiles hdraw, hinto⟩

end CompiledScene

end RenderPlan
