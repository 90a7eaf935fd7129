import PiRust.BranchEntries
import PiRust.Compaction

/- `prepare_branch_entries` of `branch_summary.rs`. -/
namespace PiRust.BranchSummary

open Compaction (estimateTokens)

def asBool : Value → Option Bool
  | .bool value => some value
  | _ => none

def asU64 : Value → Option Nat
  | .number printed => printed.toNat?.filter (· < 2 ^ 64)
  | _ => none

/-- The messages of a transcript but for their times. -/
inductive StoredAgentMessage where
  | user (content : List ContentBlock)
  | assistant (content : List ContentBlock) (api provider model : String)
      (responseModel responseId : Option String) (usage : Usage) (stopReason : StopReason)
      (errorMessage : Option String)
  | toolResult (toolCallId toolName : String) (content : List ContentBlock) (isError : Bool)
  | bashExecution (command output : String) (exitCode : Option Int) (cancelled truncated : Bool)
      (fullOutputPath : Option String) (excludeFromContext : Option Bool)
  | custom (customType : String) (content : List ContentBlock) (display : Bool)
  | branchSummary (summary fromId : String)

def SessionEntry.field (entry : SessionEntry) (key : String) : Option Value :=
  (entry.fields.find? fun field => field.1 = key).map Prod.snd

def textFromBlocks (blocks : List ContentBlock) : String :=
  "\n".intercalate (blocks.filterMap fun block =>
    match block with
    | .text text _ => some text
    | _ => none)

def storedToAgentMessage (entryId : String) : StoredAgentMessage → Option AgentMessage
  | .user content => some (.userText entryId (textFromBlocks content))
  | .assistant content api provider model responseModel responseId usage stopReason errorMessage =>
    some (.assistant entryId
      { content, api, provider := some provider, model, responseModel, responseId, usage,
        stopReason, errorMessage })
  | .toolResult .. => none
  | .bashExecution command output exitCode cancelled truncated fullOutputPath excludeFromContext =>
    some (.bashExecution entryId command output exitCode cancelled truncated fullOutputPath
      (excludeFromContext.getD false))
  | .custom customType content display => some (.custom entryId customType content display)
  | .branchSummary summary fromId => some (.branchSummary entryId summary fromId)

/-- `fromValue` is `serde_json::from_value` for stored messages. -/
def messageFromEntry (fromValue : Value → Option StoredAgentMessage) (entry : SessionEntry) :
    Option AgentMessage :=
  if entry.entryType = "message" then
    ((entry.field "message").bind fromValue).bind (storedToAgentMessage entry.id)
  else if entry.entryType = "branch_summary" then do
    let summary ← (entry.field "summary").bind Value.asStr
    let fromId ← (entry.field "fromId").bind Value.asStr
    return .branchSummary entry.id summary fromId
  else if entry.entryType = "compaction" then do
    let summary ← (entry.field "summary").bind Value.asStr
    let tokensBefore := ((entry.field "tokensBefore").bind asU64).getD 0
    return .compactionSummary entry.id summary (UInt32.ofNat tokensBefore)
  else none

structure FileOperations where
  read : Std.TreeSet String
  modified : Std.TreeSet String

def fileNames (files : Option Value) : List String :=
  match files with
  | some (.array items) => items.filterMap Value.asStr
  | _ => []

def collectFileDetails (details : Value) (fileOps : FileOperations) : FileOperations where
  read := (fileNames (details.get "readFiles")).foldl Std.TreeSet.insert fileOps.read
  modified := (fileNames (details.get "modifiedFiles")).foldl Std.TreeSet.insert fileOps.modified

def collectEntryFiles (fileOps : FileOperations) (entry : SessionEntry) : FileOperations :=
  if entry.entryType = "branch_summary" ∧ (entry.field "fromHook").bind asBool ≠ some true then
    match entry.field "details" with
    | some details => collectFileDetails details fileOps
    | none => fileOps
  else fileOps

structure BranchPreparation where
  messages : List AgentMessage
  fileOps : FileOperations
  totalTokens : UInt32

/-- `a + b` of `u32`: none where it overflows. -/
def plainAdd (a b : UInt32) : Option UInt32 :=
  if a.toNat + b.toNat < 2 ^ 32 then some (a + b) else none

def saturatingMul (a b : UInt32) : UInt32 :=
  if a.toNat * b.toNat < 2 ^ 32 then a * b else UInt32.ofNat (2 ^ 32 - 1)

def isSummary : AgentMessage → Bool
  | .compactionSummary .. | .branchSummary .. => true
  | _ => false

section prepare

variable (serde : Serde) (fromValue : Value → Option StoredAgentMessage) (tokenBudget : UInt32)

/-- The loop over the entries, newest first. Each of its ways forms the same sum: in the check
against a budget, and to add to the total. -/
def prepareLoop : List SessionEntry → List AgentMessage → UInt32 →
    Option (List AgentMessage × UInt32)
  | [], messages, totalTokens => some (messages, totalTokens)
  | entry :: entries, messages, totalTokens =>
    match messageFromEntry fromValue entry with
    | none => prepareLoop entries messages totalTokens
    | some message => do
        let sum ← plainAdd totalTokens (estimateTokens serde [message])
        if 0 < tokenBudget ∧ tokenBudget < sum then
          if isSummary message ∧ totalTokens < saturatingMul tokenBudget 9 / 10 then
            return (messages ++ [message], sum)
          else return (messages, totalTokens)
        else prepareLoop entries (messages ++ [message]) sum

/-- None where an addition overflows. -/
def prepareBranchEntries (entries : List SessionEntry) : Option BranchPreparation := do
  let prepared ← prepareLoop serde fromValue tokenBudget entries.reverse [] 0
  return ⟨prepared.1.reverse, entries.foldl collectEntryFiles ⟨∅, ∅⟩, prepared.2⟩

end prepare

end PiRust.BranchSummary
