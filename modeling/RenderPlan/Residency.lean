import RenderPlan.Plan

/-!
# Residency

Server buffers and textures are requested when a plan is activated and arrive later. Residency
keeps apart what has arrived and what is on its way, for buffers and textures alike, so that
nothing is requested twice.

## Main definitions

* `Holdings`: what has arrived and what is on its way, of one kind.
* `Residency`: the holdings of buffers and of textures.
* `Fetcher`, `Plan.activate`: requesting what a plan needs and is not there.
-/

namespace RenderPlan

/-- Names of one kind of resource that have arrived, and names that are on their way. -/
structure Holdings where
  resident : NameSet := .empty
  pending : NameSet := .empty
deriving DecidableEq

namespace Holdings

/-- Notes an arrival, requested or not. -/
def arrive (h : Holdings) (name : String) : Holdings :=
  ⟨h.resident.insert name, h.pending.erase name⟩

/-- Forgets a resource, arrived or on its way, and says whether it had arrived. -/
def evict (h : Holdings) (name : String) : Bool × Holdings :=
  (h.resident.contains name, ⟨h.resident.erase name, h.pending.erase name⟩)

/-- Neither there nor on its way. -/
def isMissing (h : Holdings) (name : String) : Bool :=
  !h.resident.contains name && !h.pending.contains name

/-- Notes a request. -/
def await (h : Holdings) (name : String) : Holdings :=
  { h with pending := h.pending.insert name }

/-- Sends a request for every missing name, in order, and returns the names requested. -/
def requestMissing {m : Type → Type} [Monad m] (send : String → m Unit) :
    List String → Holdings → m (List String × Holdings)
  | [], h => pure ([], h)
  | name :: rest, h =>
    if h.isMissing name then do
      send name
      let (sent, h) ← requestMissing send rest (h.await name)
      return (name :: sent, h)
    else requestMissing send rest h

end Holdings

/-- What has arrived and what is on its way, of buffers (by model) and textures. -/
structure Residency where
  buffers : Holdings := {}
  textures : Holdings := {}
deriving DecidableEq

/-- The layer that takes requests. Arrivals are noted in the residency later. -/
structure Fetcher (m : Type → Type) where
  requestBuffer : String → m Unit
  requestTexture : String → m Unit

/-- The requests sent by one activation. -/
structure Activation where
  buffers : List String
  textures : List String
deriving DecidableEq

namespace Activation

/-- Nothing was requested. -/
def isEmpty (a : Activation) : Bool := a.buffers.isEmpty && a.textures.isEmpty

end Activation

namespace Plan

/-- Requests the server buffers and then the server textures of a plan that are neither there nor
on their way. -/
def activate {m : Type → Type} [Monad m] (p : Plan) (fetcher : Fetcher m) (r : Residency) :
    m (Activation × Residency) := do
  let (buffers, bufferHoldings) ←
    r.buffers.requestMissing fetcher.requestBuffer p.serverBuffers.toList
  let (textures, textureHoldings) ←
    r.textures.requestMissing fetcher.requestTexture p.serverTextures.toList
  return (⟨buffers, textures⟩, ⟨bufferHoldings, textureHoldings⟩)

end Plan

end RenderPlan
