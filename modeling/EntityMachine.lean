import EntityMachine.Assembler
import EntityMachine.Natives
import EntityMachine.Session
import EntityMachine.Snapshot
import EntityMachine.Proofs.FaultFreedom
import EntityMachine.Proofs.Ownership
import EntityMachine.Proofs.Restoration
import EntityMachine.Proofs.PoolCoherence
import EntityMachine.Proofs.PoolHistories
import EntityMachine.Proofs.Frames
import EntityMachine.Proofs.ReferenceNatives
import EntityMachine.Proofs.Presence
import EntityMachine.Proofs.Agreement
import EntityMachine.Proofs.Observation
import EntityMachine.Proofs.Continuation
import EntityMachine.Proofs.Likeness
import EntityMachine.Proofs.Limits
import EntityMachine.Proofs.Watching
import EntityMachine.Proofs.World
import EntityMachine.Proofs.MachineOrder
import EntityMachine.Proofs.OrderedExecutions
import EntityMachine.Proofs.RestoredState
import EntityMachine.Proofs.BoundedStrings
import EntityMachine.Proofs.AllocationPolicy
import EntityMachine.Proofs.FreedRecords
import EntityMachine.Proofs.Interplay
import EntityMachine.Proofs.TraceNesting
import EntityMachine.Proofs.CallingConvention
import EntityMachine.Proofs.Addresses
import EntityMachine.Proofs.Confinement
import EntityMachine.Proofs.Budget
import EntityMachine.Proofs.RingTurns
import EntityMachine.Proofs.FrameCounts
import EntityMachine.Proofs.ControlSteps
import EntityMachine.Proofs.FailurePlaces
import EntityMachine.Proofs.OpenCalls
import EntityMachine.Proofs.FailureContexts
import EntityMachine.Proofs.Assembling
import EntityMachine.Proofs.Branches
import EntityMachine.Proofs.EntityWalks
import EntityMachine.Proofs.FunctionListings
import EntityMachine.Proofs.ImageLayout
import EntityMachine.Proofs.SingleValues
import EntityMachine.Proofs.NumberTexts
