import FileServer.Config.Document
import FileServer.Main
import FileServer.Proofs.Delivery
import FileServer.Proofs.Request.Arrival
import FileServer.Proofs.Server.Ownership
import FileServer.Proofs.Kernel.Change
import FileServer.Proofs.Kernel.Operations
import FileServer.Proofs.Server.Places
import FileServer.Proofs.Hub
import FileServer.Proofs.Server.Life
import FileServer.Proofs.Server.LoopSteps
import FileServer.Proofs.Request.Hearing
import FileServer.Proofs.Reference
import FileServer.Proofs.Server.Slots
import FileServer.Proofs.Kernel.Gentle
import FileServer.Proofs.Exchange
import FileServer.Proofs.Server.Attendance
import FileServer.Proofs.Server.Admission
import FileServer.Proofs.Server.Refinement
import FileServer.Proofs.Pool
import FileServer.Proofs.Server.Waking
import FileServer.Proofs.Server.Rest
import FileServer.Proofs.Server.Solitude
import FileServer.Proofs.Phases
import FileServer.Proofs.Server.Phases
import FileServer.Proofs.Reuse
import FileServer.Proofs.Shutdown
import FileServer.Proofs.Bounds
import FileServer.Proofs.Server.Accounting
import FileServer.Proofs.Ledger
import FileServer.Proofs.Noted
import FileServer.Proofs.Kernel.Tracking
import FileServer.Proofs.Server.Holdings
import FileServer.Proofs.Server.Tracking
import FileServer.Proofs.Server.Conservation
import FileServer.Proofs.Decoding
import FileServer.Proofs.Violation
import FileServer.Proofs.Site
import FileServer.Proofs.Kernel.WithSite
import FileServer.Proofs.Kernel.Watching
import FileServer.Proofs.Server.Secrecy
import FileServer.Proofs.Server.Listening
import FileServer.Proofs.Server.Backlog
import FileServer.Proofs.Request.Calls
import FileServer.Proofs.Framing
import FileServer.Proofs.Request.Grammar
import FileServer.Proofs.Request.HeaderBlock
import FileServer.Proofs.Confinement
import FileServer.Proofs.Lifetime
import FileServer.Proofs.Driving
