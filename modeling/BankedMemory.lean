import BankedMemory.Bits
import BankedMemory.Bus
import BankedMemory.Cell.Basic
import BankedMemory.Cell.Output
import BankedMemory.CommandLine.Arguments
import BankedMemory.CommandLine.FileTree.Basic
import BankedMemory.CommandLine.FileTree.Entries
import BankedMemory.CommandLine.FileTree.Paths
import BankedMemory.CommandLine.Options
import BankedMemory.CommandLine.Program
import BankedMemory.Event
import BankedMemory.Fault
import BankedMemory.Main
import BankedMemory.Memory.Basic
import BankedMemory.Memory.Contents
import BankedMemory.Memory.Cycle
import BankedMemory.Net
import BankedMemory.Netlist.Basic
import BankedMemory.Netlist.Cells
import BankedMemory.Netlist.Census
import BankedMemory.Netlist.Rewiring
import BankedMemory.Netlist.Text
import BankedMemory.Positions
import BankedMemory.Proofs.Addresses
import BankedMemory.Proofs.Banks
import BankedMemory.Proofs.Census.Acceptance
import BankedMemory.Proofs.Census.Networks
import BankedMemory.Proofs.Census.Options
import BankedMemory.Proofs.Census.Overflow
import BankedMemory.Proofs.Census.Replicas
import BankedMemory.Proofs.Census.Tallies
import BankedMemory.Proofs.Census.Ties
import BankedMemory.Proofs.Checks
import BankedMemory.Proofs.Completions
import BankedMemory.Proofs.Construction.Accounts
import BankedMemory.Proofs.Construction.Additions
import BankedMemory.Proofs.Construction.Arena
import BankedMemory.Proofs.Construction.Bookkeeping
import BankedMemory.Proofs.Construction.Builds
import BankedMemory.Proofs.Construction.Chains
import BankedMemory.Proofs.Construction.Edits
import BankedMemory.Proofs.Construction.Endings
import BankedMemory.Proofs.Construction.Feedback
import BankedMemory.Proofs.Construction.Growth
import BankedMemory.Proofs.Construction.Installation
import BankedMemory.Proofs.Construction.Inventory
import BankedMemory.Proofs.Construction.Ledger
import BankedMemory.Proofs.Construction.Lifecycle
import BankedMemory.Proofs.Construction.Moments
import BankedMemory.Proofs.Construction.Network
import BankedMemory.Proofs.Construction.Placement
import BankedMemory.Proofs.Construction.Redirection
import BankedMemory.Proofs.Construction.Refusals
import BankedMemory.Proofs.Construction.Replacement
import BankedMemory.Proofs.Construction.Replicas
import BankedMemory.Proofs.Construction.Resolution
import BankedMemory.Proofs.Construction.Revisions
import BankedMemory.Proofs.Construction.Shelter
import BankedMemory.Proofs.Construction.Standing
import BankedMemory.Proofs.Contention.Bits
import BankedMemory.Proofs.Contention.Commits
import BankedMemory.Proofs.Contention.Reordering
import BankedMemory.Proofs.Contention.Samples
import BankedMemory.Proofs.Declarations
import BankedMemory.Proofs.Embedding.Applied
import BankedMemory.Proofs.Embedding.Behaviour
import BankedMemory.Proofs.Embedding.Faithful
import BankedMemory.Proofs.Embedding.Follows
import BankedMemory.Proofs.Embedding.Inclusion
import BankedMemory.Proofs.Embedding.Labels
import BankedMemory.Proofs.Embedding.Networks
import BankedMemory.Proofs.Embedding.Replicas
import BankedMemory.Proofs.Embedding.Scopes
import BankedMemory.Proofs.Embedding.SingleWriter
import BankedMemory.Proofs.Evaluation.Acyclic
import BankedMemory.Proofs.Evaluation.Carries
import BankedMemory.Proofs.Evaluation.Cycle
import BankedMemory.Proofs.Evaluation.Equations
import BankedMemory.Proofs.Evaluation.Faultless
import BankedMemory.Proofs.Evaluation.Faults
import BankedMemory.Proofs.Evaluation.Fitting
import BankedMemory.Proofs.Evaluation.Loops
import BankedMemory.Proofs.Evaluation.Offers
import BankedMemory.Proofs.Evaluation.Queries
import BankedMemory.Proofs.Evaluation.Renaming
import BankedMemory.Proofs.Evaluation.Runs
import BankedMemory.Proofs.Evaluation.Settling
import BankedMemory.Proofs.Evaluation.Stores
import BankedMemory.Proofs.Evaluation.Widths
import BankedMemory.Proofs.Legibility.Buses
import BankedMemory.Proofs.Legibility.Chunks
import BankedMemory.Proofs.Legibility.Determined
import BankedMemory.Proofs.Legibility.Memories
import BankedMemory.Proofs.Legibility.Netlists
import BankedMemory.Proofs.Legibility.Plain
import BankedMemory.Proofs.Legibility.Reading
import BankedMemory.Proofs.Legibility.Strings
import BankedMemory.Proofs.Lists
import BankedMemory.Proofs.Network.Arbitration
import BankedMemory.Proofs.Network.Coherence
import BankedMemory.Proofs.Network.Collisions
import BankedMemory.Proofs.Network.Following
import BankedMemory.Proofs.Network.Ports
import BankedMemory.Proofs.Network.Residue
import BankedMemory.Proofs.Network.Shares
import BankedMemory.Proofs.Numbers
import BankedMemory.Proofs.Products
import BankedMemory.Proofs.Refinement.Memory
import BankedMemory.Proofs.Refinement.Order
import BankedMemory.Proofs.Refinement.Runs
import BankedMemory.Proofs.Replication.Lockstep
import BankedMemory.Proofs.Replication.Tracking
import BankedMemory.Proofs.Replication.United
import BankedMemory.Proofs.Replication.Whole
import BankedMemory.Proofs.Selection
import BankedMemory.Proofs.Words
import BankedMemory.Simulation.Cycle
import BankedMemory.Simulation.Settling
import BankedMemory.Simulation.State
import BankedMemory.Size
import BankedMemory.Storage.Assembly
import BankedMemory.Storage.Blueprint
import BankedMemory.Storage.Engine
import BankedMemory.Storage.Ports
import BankedMemory.Storage.Refusal
import BankedMemory.Storage.Replicated
import BankedMemory.Storage.Workbench
import BankedMemory.Storage.XorNetwork
import BankedMemory.Table
import BankedMemory.Text.Quoted
import BankedMemory.Text.Unprintable
import BankedMemory.Trit
