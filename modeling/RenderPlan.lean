import RenderPlan.Frame.Trace
import RenderPlan.Main
import RenderPlan.Proofs.AllAtOnce
import RenderPlan.Proofs.ArgumentOrder
import RenderPlan.Proofs.CacheCalls
import RenderPlan.Proofs.CacheLedger
import RenderPlan.Proofs.Compilation
import RenderPlan.Proofs.DeclaredTriggers
import RenderPlan.Proofs.Deferral
import RenderPlan.Proofs.DocumentFaults
import RenderPlan.Proofs.DocumentLayout
import RenderPlan.Proofs.DumpReload
import RenderPlan.Proofs.FetchProtocol
import RenderPlan.Proofs.FrameTrace
import RenderPlan.Proofs.LastWrites
import RenderPlan.Proofs.LayerCalls
import RenderPlan.Proofs.LibraryRefinement
import RenderPlan.Proofs.NumericalEquality
import RenderPlan.Proofs.PlanIdentity
import RenderPlan.Proofs.Precedence
import RenderPlan.Proofs.RenderLoop
import RenderPlan.Proofs.RenderOrder
import RenderPlan.Proofs.SessionOutcome
import RenderPlan.Proofs.TriggerQueries
import RenderPlan.Proofs.UploadBytes
import RenderPlan.Proofs.UploadSizes
import RenderPlan.Proofs.WritesEverywhere
import RenderPlan.Schema.Plans
import RenderPlan.Stock.Catalogs
