import RenderPlan.Buffer
import RenderPlan.Item
import RenderPlan.Program
import RenderPlan.Texture

/-!
# Catalogs

The four tables of declarations that scenes are compiled against.
-/

namespace RenderPlan

/-- Declared programs, models, textures and items. -/
structure Catalogs where
  programs : NameTable Program := .empty
  models : NameTable Model := .empty
  textures : NameTable Texture := .empty
  items : NameTable Item := .empty
deriving DecidableEq, BEq

namespace Catalogs

/-- The buffer that a reference points at. -/
def buffer? (c : Catalogs) (ref : AttributeRef) : Option Buffer :=
  (c.models.get? ref.model).bind fun model => model.get? ref.name

end Catalogs

end RenderPlan
