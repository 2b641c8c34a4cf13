import ScriptTree.Script.Join
import ScriptTree.Proofs.Unfold
import ScriptTree.CommandLine.Run
import ScriptTree.Proofs.ReadBack
import ScriptTree.Proofs.RoundTrip
import ScriptTree.Proofs.Brackets
import ScriptTree.Proofs.Success
import ScriptTree.Proofs.Atoms
import ScriptTree.Proofs.TextLaw
import ScriptTree.Proofs.RenderLaw
import ScriptTree.Proofs.WellBracketed
import ScriptTree.Proofs.SlotUse
import ScriptTree.Proofs.Blocks
import ScriptTree.Proofs.Replacement
import ScriptTree.Proofs.FaultCause
import ScriptTree.Proofs.WellFormed
import ScriptTree.Proofs.Independence
import ScriptTree.Proofs.SlotNames
import ScriptTree.Proofs.Effects
import ScriptTree.Proofs.Grammar
import ScriptTree.Proofs.ScriptShape
import ScriptTree.Proofs.Sameness
import ScriptTree.Proofs.MapEntries
import ScriptTree.Proofs.Hyphens
import ScriptTree.Proofs.EntryOrder
import ScriptTree.Proofs.Conditions
import ScriptTree.Proofs.Bodies
import ScriptTree.Proofs.Parameters
import ScriptTree.Proofs.Chains
import ScriptTree.Proofs.Splices
import ScriptTree.Proofs.Operands
import ScriptTree.Proofs.Sugar
import ScriptTree.Proofs.Regrouping
import ScriptTree.Proofs.Guard
import ScriptTree.Proofs.SlotLines
import ScriptTree.Proofs.AppliedTests
import ScriptTree.Proofs.RatioText
import ScriptTree.Proofs.Spellings
import ScriptTree.Proofs.Paths
