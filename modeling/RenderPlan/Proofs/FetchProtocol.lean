import Mathlib.Data.Multiset.AddSub
import Mathlib.Logic.Relation
import RenderPlan.Proofs.Deferral

/-!
# The fetch protocol

Activating a plan sends a request for each server resource of the plan that is neither there nor on
its way. Requests travel; some time later a resource arrives, for a request in flight or unasked,
and at any time resources are evicted or everything is forgotten, also while requests are in flight.
Whatever the order in which all this happens, a resource that is noted as on its way has a request
in flight, and none is requested again unless it was forgotten in between.

Both kinds of resources follow the same rules, so they are told apart by a tag, and every statement
is about a resource with its kind: a model and a texture of one name are different resources.

## Main definitions

* `Resource`: a buffer, by its model, or a texture
* `FetchEvent`: what happens to resources and requests
* `Traffic`, `Traffic.Step`, `Traffic.Reachable`: a residency with the requests in flight, and how
  it goes on
* `Traffic.Sound`: the invariant that every step keeps

## Main results

* `Plan.activate_eq`: an activation sends the requests that it returns, and nothing else
* `Traffic.Sound.step`: every step keeps the invariant
* `Traffic.neither_loses_nor_duplicates`: no request is lost and none is made twice
-/

namespace RenderPlan

/-! ## Resources -/

/-- The kinds of resources that come from the server. -/
inductive Resource.Kind where
  | buffer
  | texture
deriving DecidableEq

/-- A resource that comes from the server: the buffers of a model, or a texture. -/
@[ext] structure Resource where
  kind : Resource.Kind
  name : String
deriving DecidableEq

/-- The plan needs the resource from the server. -/
def Plan.Needs (p : Plan) (x : Resource) : Prop :=
  match x.kind with
  | .buffer => x.name ∈ p.serverBuffers
  | .texture => x.name ∈ p.serverTextures

/-- Sends the request for a resource. -/
def Fetcher.request {m : Type → Type} (fetcher : Fetcher m) (x : Resource) : m Unit :=
  match x.kind with
  | .buffer => fetcher.requestBuffer x.name
  | .texture => fetcher.requestTexture x.name

/-- The requests that were sent, in order: first those for buffers, then those for textures. -/
def Activation.requests (a : Activation) : List Resource :=
  a.buffers.map (Resource.mk .buffer) ++ a.textures.map (Resource.mk .texture)

namespace Residency

/-- What has arrived and what is on its way of one kind. -/
def holdings (r : Residency) : Resource.Kind → Holdings
  | .buffer => r.buffers
  | .texture => r.textures

/-- The residency with the holdings of one kind changed. -/
def modify (r : Residency) (kind : Resource.Kind) (f : Holdings → Holdings) : Residency :=
  match kind with
  | .buffer => { r with buffers := f r.buffers }
  | .texture => { r with textures := f r.textures }

@[simp] theorem holdings_modify (r : Residency) (kind other : Resource.Kind)
    (f : Holdings → Holdings) :
    (r.modify kind f).holdings other =
      if other = kind then f (r.holdings other) else r.holdings other := by
  cases kind <;> cases other <;> rfl

@[simp] theorem holdings_empty (kind : Resource.Kind) : ({} : Residency).holdings kind = {} := by
  cases kind <;> rfl

/-- The resource has arrived. -/
def IsResident (r : Residency) (x : Resource) : Prop := x.name ∈ (r.holdings x.kind).resident

/-- The resource is on its way. -/
def IsPending (r : Residency) (x : Resource) : Prop := x.name ∈ (r.holdings x.kind).pending

/-- The resource is neither there nor on its way. -/
def isMissing (r : Residency) (x : Resource) : Bool := (r.holdings x.kind).isMissing x.name

/-- Notes a request. -/
def await (r : Residency) (x : Resource) : Residency := r.modify x.kind fun h => h.await x.name

/-- Notes an arrival, requested or not. -/
def arrive (r : Residency) (x : Resource) : Residency := r.modify x.kind fun h => h.arrive x.name

/-- Forgets a resource, arrived or on its way. -/
def evict (r : Residency) (x : Resource) : Residency := r.modify x.kind fun h => (h.evict x.name).2

theorem isMissing_iff {r : Residency} {x : Resource} :
    r.isMissing x = true ↔ ¬r.IsResident x ∧ ¬r.IsPending x :=
  Holdings.isMissing_iff

section Operations

variable {r : Residency} {x y : Resource}

@[simp] theorem isResident_await : (r.await y).IsResident x ↔ r.IsResident x := by
  unfold IsResident await
  by_cases hkind : x.kind = y.kind <;> simp [hkind, Holdings.await]

@[simp] theorem isPending_await : (r.await y).IsPending x ↔ x = y ∨ r.IsPending x := by
  unfold IsPending await
  by_cases hkind : x.kind = y.kind <;> simp [hkind, Holdings.await, Resource.ext_iff]

@[simp] theorem isResident_arrive : (r.arrive y).IsResident x ↔ x = y ∨ r.IsResident x := by
  unfold IsResident arrive
  by_cases hkind : x.kind = y.kind <;> simp [hkind, Holdings.arrive, Resource.ext_iff]

@[simp] theorem isPending_arrive : (r.arrive y).IsPending x ↔ x ≠ y ∧ r.IsPending x := by
  unfold IsPending arrive
  by_cases hkind : x.kind = y.kind <;> simp [hkind, Holdings.arrive, Resource.ext_iff]

@[simp] theorem isResident_evict : (r.evict y).IsResident x ↔ x ≠ y ∧ r.IsResident x := by
  unfold IsResident evict
  by_cases hkind : x.kind = y.kind <;> simp [hkind, Holdings.evict, Resource.ext_iff]

@[simp] theorem isPending_evict : (r.evict y).IsPending x ↔ x ≠ y ∧ r.IsPending x := by
  unfold IsPending evict
  by_cases hkind : x.kind = y.kind <;> simp [hkind, Holdings.evict, Resource.ext_iff]

@[simp] theorem not_isResident_empty : ¬({} : Residency).IsResident x := by
  simp [IsResident]

@[simp] theorem not_isPending_empty : ¬({} : Residency).IsPending x := by
  simp [IsPending]

theorem isMissing_await : (r.await y).isMissing x = true ↔ x ≠ y ∧ r.isMissing x = true := by
  simp only [isMissing_iff, isResident_await, isPending_await, not_or]
  exact and_left_comm

theorem isMissing_foldl_await : ∀ {xs : List Resource} {r : Residency},
    (xs.foldl await r).isMissing x = true ↔ x ∉ xs ∧ r.isMissing x = true
  | [], r => by simp
  | y :: xs, r => by
    rw [List.foldl_cons, isMissing_foldl_await, isMissing_await, List.mem_cons, not_or, and_assoc,
      and_left_comm]

end Operations

end Residency

/-! ## Activations -/

section Activations

/-- What an activation of the plan requests: what is neither there nor on its way. -/
def Residency.activation (r : Residency) (p : Plan) : Activation where
  buffers := p.serverBuffers.toList.filter r.buffers.isMissing
  textures := p.serverTextures.toList.filter r.textures.isMissing

variable {m : Type → Type} [Monad m] [LawfulMonad m]

/-- **Missing names are requested** once each, in order. -/
theorem Holdings.requestMissing_eq (send : String → m Unit) :
    ∀ {names : List String} (h : Holdings), names.Nodup →
      requestMissing send names h = do
        (names.filter h.isMissing).forM send
        pure (names.filter h.isMissing, (names.filter h.isMissing).foldl await h)
  | [], h, _ => by simp [requestMissing]
  | name :: names, h, hnodup => by
    obtain ⟨hname, hnames⟩ := List.nodup_cons.mp hnodup
    rw [requestMissing]
    cases hmissing : h.isMissing name with
    | false => simp [hmissing, requestMissing_eq send h hnames]
    | true =>
      -- awaiting the first name does not make any other name less missing
      have hrest : names.filter (h.await name).isMissing = names.filter h.isMissing := by
        refine List.filter_congr fun other hother => ?_
        have hne : other ≠ name := fun heq => hname (heq ▸ hother)
        rw [Bool.eq_iff_iff, isMissing_await, and_iff_left hne]
      simp [hmissing, requestMissing_eq send (h.await name) hnames, hrest]

theorem Residency.foldl_await (kind : Resource.Kind) (names : List String) (r : Residency) :
    (names.map (Resource.mk kind)).foldl await r =
      r.modify kind fun h => names.foldl Holdings.await h := by
  induction names generalizing r with
  | nil => cases kind <;> rfl
  | cons name names ih =>
    rw [List.map_cons, List.foldl_cons, ih]
    cases kind <;> rfl

/-- **An activation sends the requests that it returns**, buffers before textures and each kind in
the order of the plan, and notes them as on their way. -/
theorem Plan.activate_eq (p : Plan) (fetcher : Fetcher m) (r : Residency) :
    p.activate fetcher r = (do
      (r.activation p).requests.forM fetcher.request
      pure (r.activation p, (r.activation p).requests.foldl Residency.await r)) := by
  have hbuffers := Holdings.requestMissing_eq fetcher.requestBuffer r.buffers
    p.serverBuffers.nodup_toList
  have htextures := Holdings.requestMissing_eq fetcher.requestTexture r.textures
    p.serverTextures.nodup_toList
  have hnotes : (r.activation p).requests.foldl Residency.await r =
      ⟨(r.activation p).buffers.foldl Holdings.await r.buffers,
        (r.activation p).textures.foldl Holdings.await r.textures⟩ := by
    rw [Activation.requests, List.foldl_append, Residency.foldl_await, Residency.foldl_await]
    rfl
  rw [activate, hbuffers, htextures, hnotes, Activation.requests]
  simp only [List.forM_eq_forM, List.forM_append, List.forM_map, bind_assoc, pure_bind]
  rfl

theorem Residency.mem_requests_activation {r : Residency} {p : Plan} {x : Resource} :
    x ∈ (r.activation p).requests ↔ p.Needs x ∧ r.isMissing x = true := by
  obtain ⟨kind, name⟩ := x
  cases kind <;> simp [Activation.requests, activation, Plan.Needs, isMissing, holdings]

theorem Residency.nodup_requests_activation (r : Residency) (p : Plan) :
    (r.activation p).requests.Nodup := by
  have hnodup (names : NameSet) (keep : String → Bool) (kind : Resource.Kind) :
      ((names.toList.filter keep).map (Resource.mk kind)).Nodup :=
    (names.nodup_toList.filter keep).map fun _ _ h => (Resource.mk.inj h).2
  refine List.nodup_append.mpr ⟨hnodup .., hnodup .., ?_⟩
  -- a buffer and a texture are different even under one name
  simp only [List.mem_map]
  rintro _ ⟨a, -, rfl⟩ _ ⟨b, -, rfl⟩ h
  cases h

end Activations

/-! ## Events -/

/-- What happens to resources and to requests for them. -/
inductive FetchEvent where
  | requested (x : Resource)
  /-- A request in flight is answered. -/
  | delivered (x : Resource)
  /-- A resource arrives unasked. -/
  | appeared (x : Resource)
  | evicted (x : Resource)
  /-- Everything is forgotten. -/
  | cleared
deriving DecidableEq

namespace FetchEvent

/-- The requests in flight after an event. Forgetting does not call requests back. -/
def inFlight (requests : Multiset Resource) : FetchEvent → Multiset Resource
  | .requested x => x ::ₘ requests
  | .delivered x => requests.erase x
  | .appeared _ | .evicted _ | .cleared => requests

/-- Only its answer takes a request out of flight. -/
theorem mem_inFlight_of_ne {requests : Multiset Resource} {event : FetchEvent} {x : Resource}
    (hx : x ∈ requests) (h : event ≠ .delivered x) : x ∈ event.inFlight requests := by
  cases event with
  | requested y => exact Multiset.mem_cons_of_mem hx
  | delivered y => exact (Multiset.mem_erase_of_ne fun hxy => h (by rw [hxy])).mpr hx
  | appeared | evicted | cleared => exact hx

/-- Whether a resource is missing after an event, by whether it was before. -/
def missing (x : Resource) (before : Bool) : FetchEvent → Bool
  | .requested y | .delivered y | .appeared y => before && x ≠ y
  | .evicted y => before || x = y
  | .cleared => true

/-- Whether a resource is missing after everything that has happened. -/
def missingAfter (x : Resource) (history : List FetchEvent) : Bool :=
  history.foldl (missing x) true

/-- What is not missing becomes missing only by being forgotten. -/
theorem forgotten_of_missing {x : Resource} :
    ∀ {events : List FetchEvent}, events.foldl (missing x) false = true →
      .evicted x ∈ events ∨ .cleared ∈ events
  | [], h => by cases h
  | event :: events, h => by
    rw [List.foldl_cons] at h
    have hlater (hfalse : missing x false event = false) :
        .evicted x ∈ event :: events ∨ .cleared ∈ event :: events := by
      rw [hfalse] at h
      exact (forgotten_of_missing h).imp (List.mem_cons_of_mem _) (List.mem_cons_of_mem _)
    cases event with
    | requested y => exact hlater rfl
    | delivered y => exact hlater rfl
    | appeared y => exact hlater rfl
    | evicted y =>
      by_cases hxy : x = y
      · exact .inl (hxy ▸ List.mem_cons_self ..)
      · exact hlater (by simp [missing, hxy])
    | cleared => exact .inr (List.mem_cons_self ..)

end FetchEvent

/-- The residency after an event. -/
def Residency.after (r : Residency) : FetchEvent → Residency
  | .requested x => r.await x
  | .delivered x | .appeared x => r.arrive x
  | .evicted x => r.evict x
  | .cleared => {}

/-- What is on its way was just requested, or was on its way before and has not arrived. -/
theorem Residency.isPending_before {r : Residency} {event : FetchEvent} {x : Resource}
    (h : (r.after event).IsPending x) :
    event = .requested x ∨
      r.IsPending x ∧ event ≠ .delivered x ∧ event ≠ .appeared x := by
  cases event with
  | requested y =>
    rcases isPending_await.mp h with rfl | h
    · exact .inl rfl
    · exact .inr ⟨h, nofun, nofun⟩
  | delivered y | appeared y =>
    obtain ⟨hxy, h⟩ := isPending_arrive.mp h
    exact .inr ⟨h, by simpa [eq_comm] using hxy⟩
  | evicted y => exact .inr ⟨(isPending_evict.mp h).2, nofun, nofun⟩
  | cleared => exact absurd h not_isPending_empty

/-- What is there has just arrived, or was there before. -/
theorem Residency.isResident_before {r : Residency} {event : FetchEvent} {x : Resource}
    (h : (r.after event).IsResident x) :
    event = .delivered x ∨ event = .appeared x ∨ r.IsResident x := by
  cases event with
  | requested y => exact .inr (.inr (isResident_await.mp h))
  | delivered y =>
    rcases isResident_arrive.mp h with rfl | h
    · exact .inl rfl
    · exact .inr (.inr h)
  | appeared y =>
    rcases isResident_arrive.mp h with rfl | h
    · exact .inr (.inl rfl)
    · exact .inr (.inr h)
  | evicted y => exact .inr (.inr (isResident_evict.mp h).2)
  | cleared => exact absurd h not_isResident_empty

theorem Residency.isMissing_after (r : Residency) (event : FetchEvent) (x : Resource) :
    (r.after event).isMissing x = event.missing x (r.isMissing x) := by
  rw [Bool.eq_iff_iff, isMissing_iff]
  cases event with
  | requested y =>
    simp only [after, FetchEvent.missing, isResident_await, isPending_await, Bool.and_eq_true,
      decide_eq_true_eq, isMissing_iff]
    tauto
  | delivered y | appeared y =>
    simp only [after, FetchEvent.missing, isResident_arrive, isPending_arrive, Bool.and_eq_true,
      decide_eq_true_eq, isMissing_iff]
    tauto
  | evicted y =>
    simp only [after, FetchEvent.missing, isResident_evict, isPending_evict, Bool.or_eq_true,
      decide_eq_true_eq, isMissing_iff]
    tauto
  | cleared => simp [after, FetchEvent.missing]

/-! ## Traffic -/

/-- A fetch layer that lists the requests that it takes. -/
def Fetcher.listing : Fetcher (StateM (List Resource)) where
  requestBuffer model := modify fun requests => requests ++ [⟨.buffer, model⟩]
  requestTexture texture := modify fun requests => requests ++ [⟨.texture, texture⟩]

theorem Fetcher.run_forM_listing (xs requests : List Resource) :
    (xs.forM Fetcher.listing.request).run requests = ((), requests ++ xs) := by
  induction xs generalizing requests with
  | nil => exact Prod.ext rfl (List.append_nil _).symm
  | cons x xs ih =>
    obtain ⟨kind, name⟩ := x
    have hfirst : (Fetcher.listing.request ⟨kind, name⟩).run requests =
        ((), requests ++ [⟨kind, name⟩]) := by cases kind <;> rfl
    rw [List.forM_eq_forM, List.forM_cons, StateT.run_bind, hfirst]
    exact (ih _).trans (by rw [List.append_assoc]; rfl)

/-- A residency at work. -/
structure Traffic where
  residency : Residency := {}
  /-- The requests sent and not yet answered. -/
  inFlight : Multiset Resource := 0
  /-- What has happened so far, the earliest first. -/
  history : List FetchEvent := []

namespace Traffic

/-- An event takes place. -/
def note (t : Traffic) (event : FetchEvent) : Traffic where
  residency := t.residency.after event
  inFlight := event.inFlight t.inFlight
  history := t.history ++ [event]

/-- A plan is activated; the requests that the fetch layer takes are in flight from then on. -/
def activate (t : Traffic) (p : Plan) : Activation × Traffic :=
  let ((activation, residency), requests) := (p.activate Fetcher.listing t.residency).run []
  (activation, {
    residency
    inFlight := t.inFlight + requests
    history := t.history ++ requests.map .requested })

/-- One step of the traffic. Any request in flight may be answered next, if it is at all. -/
inductive Step (t : Traffic) : Traffic → Prop where
  | activate (p : Plan) : Step t (t.activate p).2
  | deliver (x : Resource) (h : x ∈ t.inFlight) : Step t (t.note (.delivered x))
  | appear (x : Resource) : Step t (t.note (.appeared x))
  | evict (x : Resource) : Step t (t.note (.evicted x))
  | clear : Step t (t.note .cleared)

/-- The traffic can come about from nothing there and nothing in flight. -/
def Reachable (t : Traffic) : Prop := Relation.ReflTransGen Step {} t

theorem note_requests (xs : List Resource) (t : Traffic) :
    xs.foldl (fun t x => t.note (.requested x)) t =
      ⟨xs.foldl Residency.await t.residency, t.inFlight + xs, t.history ++ xs.map .requested⟩ := by
  induction xs generalizing t with
  | nil => simp
  | cons x xs ih =>
    rw [List.foldl_cons, ih]
    simp [note, Residency.after, FetchEvent.inFlight, ← Multiset.cons_coe]

/-- **An activation is a row of requests**, those that it returns. -/
theorem activate_eq (t : Traffic) (p : Plan) :
    t.activate p = (t.residency.activation p,
      (t.residency.activation p).requests.foldl (fun t x => t.note (.requested x)) t) := by
  have hrun : (p.activate Fetcher.listing t.residency).run [] =
      ((t.residency.activation p,
        (t.residency.activation p).requests.foldl Residency.await t.residency),
        (t.residency.activation p).requests) := by
    rw [Plan.activate_eq, StateT.run_bind, Fetcher.run_forM_listing]
    rfl
  rw [activate, hrun, note_requests]

/-! ## The invariant -/

/-- **What every traffic keeps to.** -/
structure Sound (t : Traffic) : Prop where
  /-- What is on its way is not there. -/
  not_resident : ∀ x, t.residency.IsPending x → ¬t.residency.IsResident x
  /-- What is on its way has a request in flight. -/
  inFlight : ∀ x, t.residency.IsPending x → x ∈ t.inFlight
  /-- Whether something is missing shows in what has happened. -/
  isMissing : ∀ x, t.residency.isMissing x = FetchEvent.missingAfter x t.history
  /-- What was requested was missing then. -/
  requested : ∀ before x after, t.history = before ++ .requested x :: after →
    FetchEvent.missingAfter x before = true

theorem sound_empty : Sound {} where
  not_resident x h := absurd h Residency.not_isPending_empty
  inFlight x h := absurd h Residency.not_isPending_empty
  isMissing x := by
    rw [Residency.isMissing_iff.mpr ⟨Residency.not_isResident_empty, Residency.not_isPending_empty⟩]
    rfl
  requested before x after h := by simp at h

variable {t t' : Traffic}

/-- Events keep the invariant, provided that only missing resources are requested. -/
theorem Sound.note (h : t.Sound) {event : FetchEvent}
    (hevent : ∀ x, event = .requested x → t.residency.isMissing x = true) :
    (t.note event).Sound where
  not_resident x hpending hresident := by
    rcases Residency.isPending_before hpending with rfl | ⟨hpending, hdelivered, happeared⟩
    · -- what was missing is not there, and a request brings nothing
      exact (Residency.isMissing_iff.mp (hevent x rfl)).1 (Residency.isResident_await.mp hresident)
    · rcases Residency.isResident_before hresident with hevent | hevent | hresident
      · exact hdelivered hevent
      · exact happeared hevent
      · exact h.not_resident x hpending hresident
  inFlight x hpending := by
    rcases Residency.isPending_before hpending with rfl | ⟨hpending, hdelivered, -⟩
    · exact Multiset.mem_cons_self x _
    · -- the request that is answered is not for a resource still on its way
      exact FetchEvent.mem_inFlight_of_ne (h.inFlight x hpending) hdelivered
  isMissing x := by
    rw [Traffic.note, Residency.isMissing_after, h.isMissing, FetchEvent.missingAfter,
      FetchEvent.missingAfter, List.foldl_concat]
  requested before x after hhistory := by
    -- the request is the last event, or it was there before
    rcases concat_eq_append_cons_iff.mp hhistory with ⟨rfl, hlast, -⟩ | ⟨rest, hrest, -⟩
    · rw [← h.isMissing]
      exact hevent x hlast
    · exact h.requested before x rest hrest

/-- Requests for resources that are all missing keep the invariant. -/
theorem Sound.note_requests :
    ∀ {xs : List Resource} {t : Traffic}, t.Sound → xs.Nodup →
      (∀ x ∈ xs, t.residency.isMissing x = true) →
      (xs.foldl (fun t x => t.note (.requested x)) t).Sound
  | [], t, h, _, _ => h
  | x :: xs, t, h, hnodup, hmissing => by
    obtain ⟨hx, hxs⟩ := List.nodup_cons.mp hnodup
    obtain ⟨hmissingx, hmissing⟩ := List.forall_mem_cons.mp hmissing
    have hnote : (t.note (.requested x)).Sound :=
      h.note fun y hy => FetchEvent.requested.inj hy ▸ hmissingx
    rw [List.foldl_cons]
    refine note_requests hnote hxs fun y hy => ?_
    -- a request for another resource leaves this one missing
    have hne : y ≠ x := fun heq => hx (heq ▸ hy)
    exact Residency.isMissing_await.mpr ⟨hne, hmissing y hy⟩

/-- **Every step keeps the invariant.** -/
theorem Sound.step (h : t.Sound) (hstep : Step t t') : t'.Sound := by
  cases hstep with
  | activate p =>
    rw [activate_eq]
    refine h.note_requests (t.residency.nodup_requests_activation p) fun x hx => ?_
    exact (Residency.mem_requests_activation.mp hx).2
  | deliver x hx => exact h.note fun _ hevent => nomatch hevent
  | appear x => exact h.note fun _ hevent => nomatch hevent
  | evict x => exact h.note fun _ hevent => nomatch hevent
  | clear => exact h.note fun _ hevent => nomatch hevent

/-- All traffic that can come about keeps to the invariant. -/
theorem Reachable.sound (h : t.Reachable) : t.Sound := by
  induction h with
  | refl => exact sound_empty
  | tail _ hstep ih => exact ih.step hstep

/-- What is requested twice was forgotten in between. -/
theorem Sound.forgotten_between (h : t.Sound) {x : Resource}
    {before between after : List FetchEvent}
    (hhistory : t.history = before ++ .requested x :: between ++ .requested x :: after) :
    .evicted x ∈ between ∨ .cleared ∈ between := by
  have hmissing := h.requested _ x after hhistory
  rw [FetchEvent.missingAfter, List.foldl_append, List.foldl_cons] at hmissing
  -- the first request made the resource not missing, the second found it missing again
  refine FetchEvent.forgotten_of_missing (x := x) ?_
  simpa [FetchEvent.missing] using hmissing

/-- What a plan needs is there or on its way once the plan is activated. -/
theorem isResident_or_isPending_of_needs {p : Plan} {x : Resource} (hx : p.Needs x) :
    (t.activate p).2.residency.IsResident x ∨ (t.activate p).2.residency.IsPending x := by
  by_contra hnot
  have hmissing : (t.activate p).2.residency.isMissing x = true :=
    Residency.isMissing_iff.mpr (not_or.mp hnot)
  rw [activate_eq, note_requests] at hmissing
  -- it was missing before, too, so it is among the requests, and these are awaited
  obtain ⟨hrequests, hbefore⟩ := Residency.isMissing_foldl_await.mp hmissing
  exact hrequests (Residency.mem_requests_activation.mpr ⟨hx, hbefore⟩)

/-- **The fetch protocol neither loses nor duplicates a request.** In all traffic that can come
about, and for buffers and textures separately:

* nothing is both there and on its way;
* whatever is on its way has a request in flight;
* once a plan is activated, everything that it needs is there or on its way;
* between two requests for a resource it is evicted or everything is forgotten;
* an activation returns the requests that it sends, in the order of the plan, and these are for what
  the plan needs and is missing, whatever takes them. -/
theorem neither_loses_nor_duplicates (h : t.Reachable) :
    (∀ x, ¬(t.residency.IsResident x ∧ t.residency.IsPending x)) ∧
    (∀ x, t.residency.IsPending x → x ∈ t.inFlight) ∧
    (∀ (p : Plan) (x : Resource), p.Needs x →
      (t.activate p).2.residency.IsResident x ∨ (t.activate p).2.residency.IsPending x) ∧
    (∀ x before between after,
      t.history = before ++ .requested x :: between ++ .requested x :: after →
        .evicted x ∈ between ∨ .cleared ∈ between) ∧
    ∀ p : Plan,
      let (activation, t') := t.activate p
      activation.buffers = p.serverBuffers.toList.filter t.residency.buffers.isMissing ∧
      activation.textures = p.serverTextures.toList.filter t.residency.textures.isMissing ∧
      t'.history = t.history ++ activation.requests.map .requested ∧
      t'.inFlight = t.inFlight + activation.requests ∧
      ∀ (m : Type → Type) [Monad m] [LawfulMonad m] (fetcher : Fetcher m),
        p.activate fetcher t.residency = (do
          activation.requests.forM fetcher.request
          pure (activation, t'.residency)) := by
  have hsound := h.sound
  refine ⟨fun x hx => hsound.not_resident x hx.2 hx.1, hsound.inFlight,
    fun p x hx => isResident_or_isPending_of_needs hx,
    fun x before between after hhistory => hsound.forgotten_between hhistory, fun p => ?_⟩
  rw [activate_eq, note_requests]
  exact ⟨rfl, rfl, rfl, rfl, fun m _ _ fetcher => p.activate_eq fetcher t.residency⟩

/-! ### A late answer -/

/-- A plan that needs a model and a texture of one name. -/
def mapPlan : Plan :=
  { Plan.blank { name := "map" } ⟨.empty⟩ with
    serverBuffers := .ofList ["map"], serverTextures := .ofList ["map"] }

/-- The plan is activated, the model is evicted before it arrives, and the plan is activated again;
then the first request for the model is answered. -/
def lateTraffic : Traffic :=
  (((((({} : Traffic).activate mapPlan).2.note (.evicted ⟨.buffer, "map"⟩)).activate mapPlan).2).note
    (.delivered ⟨.buffer, "map"⟩))

theorem lateTraffic_reachable : lateTraffic.Reachable :=
  .tail (.tail (.tail (.single (.activate mapPlan)) (.evict ⟨.buffer, "map"⟩)) (.activate mapPlan))
    (.deliver ⟨.buffer, "map"⟩ (by decide))

/-- The texture is still on its way and has its request in flight, and the model was evicted between
the two requests for it. -/
theorem lateTraffic_requests :
    lateTraffic.residency.IsPending ⟨.texture, "map"⟩ ∧ ⟨.texture, "map"⟩ ∈ lateTraffic.inFlight ∧
      ∃ before between after,
        lateTraffic.history = before ++ .requested ⟨.buffer, "map"⟩ :: between ++
          .requested ⟨.buffer, "map"⟩ :: after ∧
        (.evicted ⟨.buffer, "map"⟩ ∈ between ∨ .cleared ∈ between) := by
  obtain ⟨-, hinFlight, -, hforgotten, -⟩ := neither_loses_nor_duplicates lateTraffic_reachable
  have hpending : lateTraffic.residency.IsPending ⟨.texture, "map"⟩ := by
    unfold Residency.IsPending
    decide
  have hhistory : lateTraffic.history = [] ++ .requested ⟨.buffer, "map"⟩ ::
      [.requested ⟨.texture, "map"⟩, .evicted ⟨.buffer, "map"⟩] ++
        .requested ⟨.buffer, "map"⟩ :: [.delivered ⟨.buffer, "map"⟩] := by decide
  exact ⟨hpending, hinFlight _ hpending, [], _, _, hhistory, hforgotten _ _ _ _ hhistory⟩

end Traffic

end RenderPlan
