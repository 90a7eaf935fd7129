import PiRust.AgentTypes

/- `compaction/estimate.rs` and `compaction/prepare.rs`. Machine integers wrap
as they do in a release build. -/
namespace PiRust.Compaction

def saturatingAdd (a b : UInt32) : UInt32 :=
  if a.toNat + b.toNat < 2 ^ 32 then a + b else UInt32.ofNat (2 ^ 32 - 1)

def saturatingSub (a b : UInt32) : UInt32 := if b ≤ a then a - b else 0

/-- `(text.len() as u32).div_ceil(4)`; `len` counts bytes. -/
def estimateTextTokens (text : String) : UInt32 :=
  let length := (UInt32.ofNat text.utf8ByteSize).toNat
  UInt32.ofNat ((length + 3) / 4)

section Estimate
variable (serde : Serde)

def estimateBlockTokens : ContentBlock → UInt32
  | .text text _ => estimateTextTokens text
  | .toolCall _ name arguments _ =>
    saturatingAdd (estimateTextTokens name) (estimateTextTokens (serde.print arguments))
  | .thinking thinking _ _ => estimateTextTokens thinking
  | .image _ _ => 1200

def estimateContentTokens (content : List ContentBlock) : UInt32 :=
  (content.map (estimateBlockTokens serde)).foldl saturatingAdd 0

def estimateMessageTokens : AgentMessage → UInt32
  | .userText _ text => estimateTextTokens text
  | .assistant _ message => estimateContentTokens serde message.content
  | .toolResult _ _ _ _ content => estimateContentTokens serde content
  | .systemPrompt _ text => estimateTextTokens text
  | .compactionSummary _ summary _ => estimateTextTokens summary
  | .bashExecution _ command output _ _ _ _ excludeFromContext =>
    if !excludeFromContext then
      saturatingAdd (estimateTextTokens command) (estimateTextTokens output)
    else 0
  | .custom _ _ content _ => estimateContentTokens serde content
  | .branchSummary _ summary _ => estimateTextTokens summary

def estimateTokens (messages : List AgentMessage) : UInt32 :=
  messages.foldl (fun total message => saturatingAdd total (estimateMessageTokens serde message)) 0

end Estimate

def calculateContextTokens (usage : Usage) : UInt32 :=
  if 0 < usage.totalTokens then usage.totalTokens
  else saturatingAdd (saturatingAdd (saturatingAdd usage.input usage.output) usage.cacheRead)
    usage.cacheWrite

structure ContextUsageEstimate where
  tokens : UInt32
  usageTokens : UInt32
  trailingTokens : UInt32
  lastUsageIndex : Option Nat
  deriving DecidableEq, Repr

def validAssistantUsage : AgentMessage → Option Usage
  | .assistant _ message =>
    if message.stopReason = .error ∨ message.stopReason = .aborted then none
    else if 0 < calculateContextTokens message.usage then some message.usage
    else none
  | _ => none

/-- The last assistant message with valid usage, walking newest first: the list
holds the messages not yet visited, newest first. -/
def lastValidFrom : List AgentMessage → Option (Usage × Nat)
  | [] => none
  | message :: before =>
    match validAssistantUsage message with
    | some usage => some (usage, before.length)
    | none => lastValidFrom before

def lastValidAssistantUsage (messages : List AgentMessage) : Option (Usage × Nat) :=
  lastValidFrom messages.reverse

def estimateContextTokens (serde : Serde) (messages : List AgentMessage) : ContextUsageEstimate :=
  match lastValidAssistantUsage messages with
  | none =>
    let trailing := estimateTokens serde messages
    ⟨trailing, 0, trailing, none⟩
  | some (usage, index) =>
    let usageTokens := calculateContextTokens usage
    let trailingTokens :=
      if index + 1 < messages.length then estimateTokens serde (messages.drop (index + 1)) else 0
    ⟨usageTokens + trailingTokens, usageTokens, trailingTokens, some index⟩

def shouldCompact (estimatedTokens contextWindow : UInt32) (settings : CompactionSettings) : Bool :=
  if !settings.enabled then false
  else 0 < contextWindow && saturatingSub contextWindow settings.reserveTokens < estimatedTokens

section Prepare
variable (serde : Serde) (settings : CompactionSettings)

/-- The backward scan of `prepare_compaction`. The list holds `messages[..i]`
newest first, so `i` is its length; the result is the final `i` and `keep_recent`. -/
def scanBack : List AgentMessage → List AgentMessage → UInt32 → Nat × List AgentMessage
  | [], keepRecent, _ => (0, keepRecent)
  | message :: before, keepRecent, keepTokens =>
    if message.isToolResult ∧ keepRecent = [] then scanBack before keepRecent keepTokens
    else
      let messageTokens := estimateTokens serde [message]
      if settings.keepRecentTokens < keepTokens + messageTokens ∧ keepRecent ≠ [] then
        (before.length + 1, keepRecent)
      else scanBack before (message :: keepRecent) (keepTokens + messageTokens)

/-- The messages to summarize and the messages to keep. -/
def prepareCompaction (messages : List AgentMessage) : List AgentMessage × List AgentMessage :=
  if messages = [] then ([], [])
  else if estimateTokens serde messages ≤ settings.reserveTokens + settings.keepRecentTokens then
    ([], messages)
  else
    let scanned := scanBack serde settings messages.reverse [] 0
    (messages.take scanned.1, scanned.2)

end Prepare

end PiRust.Compaction
