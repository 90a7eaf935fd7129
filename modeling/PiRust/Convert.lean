import PiRust.AgentTypes

/- `convert.rs` and the parts of `resources/system_prompt.rs` it calls. -/
namespace PiRust

inductive Message where
  | user (content : List ContentBlock)
  | assistant (content : List ContentBlock)
  | toolResult (toolCallId : String) (toolName : Option String) (isError : Option Bool)
      (content : List ContentBlock)

/-- The calls that a message of a provider request makes. -/
def Message.callIds : Message → List String
  | .assistant content => content.filterMap ContentBlock.callId?
  | _ => []

def Message.answers? : Message → Option String
  | .toolResult toolCallId _ _ _ => some toolCallId
  | _ => none

structure Skill where
  name : String
  description : String
  location : String
  disableModelInvocation : Bool

structure Tool where
  name : String
  description : Option String
  parameters : Value

structure Context where
  systemPrompt : Option String
  messages : List Message
  tools : Option (List Tool)

inductive ToolExecutionMode where
  | sequential
  | parallel
  deriving DecidableEq, Repr

structure AgentTool where
  name : String
  description : String
  parameters : Value
  executionMode : Option ToolExecutionMode

def xmlEscape (text : String) : String :=
  String.ofList (text.toList.flatMap fun c =>
    if c = '&' then "&amp;".toList
    else if c = '<' then "&lt;".toList
    else if c = '>' then "&gt;".toList
    else if c = '"' then "&quot;".toList
    else [c])

def formatSkillsForSystemPrompt (skills : List Skill) : String :=
  if skills.isEmpty then ""
  else
    let shown := skills.filter fun skill => !skill.disableModelInvocation
    "<available_skills>\n" ++ String.join (shown.map fun skill =>
      "  <skill>\n    <name>" ++ xmlEscape skill.name ++ "</name>\n    <description>" ++
        xmlEscape skill.description ++ "</description>\n    <location>" ++
        xmlEscape skill.location ++ "</location>\n  </skill>\n") ++ "</available_skills>"

def bashExecutionToText (command output : String) (exitCode : Option Int)
    (cancelled truncated : Bool) (fullOutputPath : Option String) : String :=
  "Ran `" ++ command ++ "`\n" ++
    (if output = "" then "(no output)" else "```\n" ++ output ++ "\n```") ++
    (if cancelled then "\n\n(command cancelled)"
      else match exitCode with
        | some code => if code ≠ 0 then "\n\nCommand exited with code " ++ toString code else ""
        | none => "") ++
    (match truncated, fullOutputPath with
      | true, some path => "\n\n[Output truncated. Full output: " ++ path ++ "]"
      | _, _ => "")

def compactionSummaryText (summary : String) : String :=
  "The conversation history before this point was compacted into the following summary:\n\n<summary>\n"
    ++ summary ++ "\n</summary>"

def branchSummaryText (summary : String) : String :=
  "The following is a summary of a branch that this conversation came back from:\n\n<summary>\n"
    ++ summary ++ "\n</summary>"

/-- One arm of `default_convert_to_llm`; system prompts and excluded shell runs
have no message. -/
def convertMessage : AgentMessage → Option Message
  | .userText _ text => some (.user [.text text none])
  | .assistant _ message => some (.assistant message.content)
  | .toolResult _ toolCallId toolName isError content =>
    some (.toolResult toolCallId (some toolName) (some isError) content)
  | .systemPrompt _ _ => none
  | .compactionSummary _ summary _ => some (.user [.text (compactionSummaryText summary) none])
  | .bashExecution _ command output exitCode cancelled truncated fullOutputPath excluded =>
    if excluded then none
    else some (.user [.text
      (bashExecutionToText command output exitCode cancelled truncated fullOutputPath) none])
  | .custom _ _ content _ => some (.user content)
  | .branchSummary _ summary _ => some (.user [.text (branchSummaryText summary) none])

def defaultConvertToLlm (messages : List AgentMessage) : List Message :=
  messages.filterMap convertMessage

def assembleContext (systemPrompt : Option String) (agentMessages : List AgentMessage)
    (llmMessages : List Message) (tools : List AgentTool) (skills : List Skill) : Context where
  systemPrompt :=
    let fromMessages := agentMessages.findSome? fun
      | .systemPrompt _ text => some text
      | _ => none
    let base := systemPrompt.or fromMessages
    if skills.isEmpty then base
    else
      let block := formatSkillsForSystemPrompt skills
      if block = "" then base
      else match base with
        | some text => some (text ++ "\n\n" ++ block)
        | none => some block
  messages := llmMessages
  tools :=
    if tools.isEmpty then none
    else some (tools.map fun tool => ⟨tool.name, some tool.description, tool.parameters⟩)

def convertToContext (systemPrompt : Option String) (messages : List AgentMessage)
    (tools : List AgentTool) (skills : List Skill) : Context :=
  assembleContext systemPrompt messages (defaultConvertToLlm messages) tools skills

theorem defaultConvertToLlm_append (first second : List AgentMessage) :
    defaultConvertToLlm (first ++ second) =
      defaultConvertToLlm first ++ defaultConvertToLlm second :=
  List.filterMap_append

end PiRust
