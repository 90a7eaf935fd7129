import PiRust.QueueDelivery
import PiRust.Truncation
import PiRust.PromptDelivery
import PiRust.Submission
import PiRust.ManualCompaction
import PiRust.ConfirmationRuns
import PiRust.CreationOutcomes
import PiRust.EditFrame
import PiRust.MutationQueue
import PiRust.AddedMessages
import PiRust.RunEvents
import PiRust.HookRegistrations
import PiRust.PromptSnapshots
import PiRust.TuiFrames
import PiRust.BedrockFrames
import PiRust.AnthropicIndices
import PiRust.ToolCallIds
import PiRust.CallIds
import PiRust.ProtocolBrackets
import PiRust.RpcDelivery
import PiRust.DelegationRuns
import PiRust.ReplayCompactions
import PiRust.AppendAtomicity
import PiRust.ProxyDecoders
import PiRust.Frontmatter
import PiRust.SubstituteArgs
import PiRust.TokenAccounting
import PiRust.PartialArguments
import PiRust.BoundedOutput
import PiRust.ReadPages
import PiRust.AbandonedLeaves
import PiRust.UnifiedPatch
import PiRust.LeafTree
import PiRust.HydratedCalls
import PiRust.RecordedCalls
import PiRust.FilesystemCapability
import PiRust.TuiFocus
import PiRust.KillRuns
import PiRust.UndoRuns
import PiRust.PasteMarkers
import PiRust.FuzzyMatch
import PiRust.RpcIdempotency
import PiRust.DateTime
import PiRust.KeyIds
import PiRust.JsonlReader
import PiRust.FlowRuns
import PiRust.Grep
