import RenderPlan.Document.Load
import RenderPlan.Stock.Models
import RenderPlan.Stock.Programs
import RenderPlan.Stock.Scenes

/-!
# Stock catalogs

The declarations of the graph view, ready to be compiled.
-/

namespace RenderPlan.Stock

/-- The stock catalogs. -/
def catalogs : Catalogs := ⟨programs, models, textures, items⟩

/-- The stock catalogs with the stock scenes. -/
def parts : Document.Parts := ⟨catalogs, scenes⟩

/-- The stock document. -/
def document : Document := .ofParts parts

/-- The library of the stock scenes. -/
def library : Library := parts.library

end RenderPlan.Stock
