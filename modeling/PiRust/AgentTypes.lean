import PiRust.AiTypes

namespace PiRust

inductive AgentMessage where
  | userText (messageId text : String)
  | assistant (messageId : String) (message : AssistantMessage)
  | toolResult (messageId toolCallId toolName : String) (isError : Bool)
      (content : List ContentBlock)
  | systemPrompt (messageId text : String)
  | compactionSummary (messageId summary : String) (tokensBefore : UInt32)
  | bashExecution (messageId command output : String) (exitCode : Option Int)
      (cancelled truncated : Bool) (fullOutputPath : Option String)
      (excludeFromContext : Bool)
  | custom (messageId customType : String) (content : List ContentBlock) (display : Bool)
  | branchSummary (messageId summary fromId : String)

def AgentMessage.messageId : AgentMessage → String
  | .userText messageId _ | .assistant messageId _ | .toolResult messageId _ _ _ _
  | .systemPrompt messageId _ | .compactionSummary messageId _ _
  | .bashExecution messageId _ _ _ _ _ _ _ | .custom messageId _ _ _
  | .branchSummary messageId _ _ => messageId

/-- The test `matches!(msg, AgentMessage::ToolResult { .. })`. -/
def AgentMessage.isToolResult : AgentMessage → Bool
  | .toolResult .. => true
  | _ => false

/-- The calls an assistant message makes; other messages make none. -/
def AgentMessage.callIds : AgentMessage → List String
  | .assistant _ message => message.callIds
  | _ => []

/-- The call a tool result answers. -/
def AgentMessage.answers? : AgentMessage → Option String
  | .toolResult _ toolCallId _ _ _ => some toolCallId
  | _ => none

structure CompactionSettings where
  enabled : Bool := true
  reserveTokens : UInt32 := 16384
  keepRecentTokens : UInt32 := 20000
  deriving DecidableEq, Repr

structure CompactionConfig where
  settings : CompactionSettings := {}
  customInstructions : Option String := none

end PiRust
