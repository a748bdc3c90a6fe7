import RenderPlan.Number.Rounding

/-!
# Textures

A texture is sampled from or drawn into. Its size follows the canvas by a scale factor; picking
targets are usually smaller than the canvas.

## Main definitions

* `Texture.Origin`, `Texture`.
* `Texture.scaledSize`: the size in pixels for a canvas.
-/

namespace RenderPlan

/-- Where the pixels of a texture come from. -/
inductive Texture.Origin where
  /-- Rendered or uploaded by the client. -/
  | client
  /-- Produced by the server and fetched before use. -/
  | server
deriving DecidableEq

/-- A texture, with its size relative to the canvas. -/
structure Texture where
  origin : Texture.Origin
  scale : Binary32
deriving DecidableEq, BEq

namespace Texture

/-- The texture has to be fetched from the server. -/
def isServer (t : Texture) : Bool := t.origin == .server

theorem isServer_iff {t : Texture} : t.isServer = true ↔ t.origin = .server := by
  simp [isServer]

/-- One side in pixels for a canvas side: the scaled side rounded to a whole number, a half
upward, and never below one pixel. -/
def scaledSide (t : Texture) (side : UInt32) : Nat :=
  max 1 ((Binary.ofInt side.toNat * t.scale).roundWithin 0 (UInt32.size - 1)).toNat

/-- Width and height in pixels for a canvas, never below one by one. -/
def scaledSize (t : Texture) (width height : UInt32) : Nat × Nat :=
  (t.scaledSide width, t.scaledSide height)

end Texture

end RenderPlan
