import PagedKernel.Main
import PagedKernel.Memory.Flat
import PagedKernel.Program.Elf
import PagedKernel.Proofs.Ends
import PagedKernel.Proofs.EndsAlike
import PagedKernel.Proofs.Respects
import PagedKernel.Proofs.Layout
import PagedKernel.Proofs.Memory.Frames
import PagedKernel.Proofs.Memory.Operations
import PagedKernel.Proofs.Memory.Initial
import PagedKernel.Proofs.Memory.References
import PagedKernel.Proofs.Paging.Entry
import PagedKernel.Proofs.Paging.Forest
import PagedKernel.Proofs.Paging.Growth
import PagedKernel.Proofs.Paging.Map
import PagedKernel.Proofs.Paging.Lacking
import PagedKernel.Proofs.Paging.Maps
import PagedKernel.Proofs.Paging.Preorder
import PagedKernel.Proofs.Paging.Built
import PagedKernel.Proofs.Paging.Walks
import PagedKernel.Proofs.Paging.UserMemory
import PagedKernel.Proofs.Paging.UserText
import PagedKernel.Proofs.Paging.Accesses
import PagedKernel.Proofs.Paging.Texts
import PagedKernel.Proofs.Program.Elf
import PagedKernel.Proofs.Program.Picture
import PagedKernel.Proofs.Process.Build
import PagedKernel.Proofs.Process.Changes
import PagedKernel.Proofs.Process.Copy
import PagedKernel.Proofs.Process.Demand
import PagedKernel.Proofs.Process.Free
import PagedKernel.Proofs.Process.Keeps
import PagedKernel.Proofs.Process.Load
import PagedKernel.Proofs.Process.Picture
import PagedKernel.Proofs.Process.Sound
import PagedKernel.Proofs.Process.Table
import PagedKernel.Proofs.Process.Views
import PagedKernel.Proofs.Kernel.Valid
import PagedKernel.Proofs.Kernel.Mappings
import PagedKernel.Proofs.Kernel.Serves
import PagedKernel.Proofs.Kernel.Contents
import PagedKernel.Proofs.Kernel.Lifecycle
import PagedKernel.Proofs.Kernel.View
import PagedKernel.Proofs.Kernel.Schedule
import PagedKernel.Proofs.Kernel.Entry
import PagedKernel.Proofs.Kernel.Boot
import PagedKernel.Proofs.Kernel.Reachable
import PagedKernel.Proofs.Kernel.Requests
import PagedKernel.Proofs.Kernel.Accounting
import PagedKernel.Proofs.Kernel.Identity
import PagedKernel.Proofs.Kernel.Confinement
import PagedKernel.Proofs.Kernel.Isolation
import PagedKernel.Proofs.Kernel.Halting
import PagedKernel.Proofs.Kernel.Duplication
import PagedKernel.Proofs.Kernel.Images
import PagedKernel.Proofs.Kernel.Pages
import PagedKernel.Proofs.Kernel.Accesses
import PagedKernel.Proofs.Kernel.Texts
import PagedKernel.Proofs.Kernel.Costs
import PagedKernel.Proofs.Kernel.Exhaustion
import PagedKernel.Proofs.Control.Steps
import PagedKernel.Proofs.Control.Operations
import PagedKernel.Proofs.Control.Calls
import PagedKernel.Proofs.Control.Effects
import PagedKernel.Proofs.Control.Sessions
import PagedKernel.Proofs.Control.Contexts
import PagedKernel.Proofs.Control.Lives
import PagedKernel.Proofs.Control.Rounds
import PagedKernel.Proofs.Placement.Honest
import PagedKernel.Proofs.Placement.Starved
import PagedKernel.Proofs.Placement.Accesses
import PagedKernel.Proofs.Placement.Loading
import PagedKernel.Proofs.Placement.Twins
import PagedKernel.Proofs.Placement.Lifecycle
import PagedKernel.Proofs.Placement.Calls
import PagedKernel.Proofs.Placement.Runs
import PagedKernel.Proofs.View.Logs
import PagedKernel.Proofs.View.Concurs
import PagedKernel.Proofs.View.Advisory
import PagedKernel.Proofs.View.Rotation
import PagedKernel.Proofs.Kernel.Waiting
import PagedKernel.Proofs.Simulation.Entries
import PagedKernel.Proofs.Simulation.Boot
import PagedKernel.Proofs.Simulation.Programs
import PagedKernel.Proofs.Simulation.Steps
import PagedKernel.Proofs.Simulation.Runs
import PagedKernel.Proofs.Control.Faults
import PagedKernel.Proofs.Control.Spurious
import PagedKernel.Proofs.Alignment
import PagedKernel.Proofs.Memory.Bytes
import PagedKernel.Proofs.Paging.Codec
import PagedKernel.Proofs.Program.Registry
import PagedKernel.Proofs.Kernel.BootOrder
