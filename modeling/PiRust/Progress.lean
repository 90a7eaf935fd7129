import PiRust.AiTypes
import PiRust.Selection

/- What the stream handlers do to the message under construction: they append
blocks, write into blocks through `content.get_mut`, and emit copies of it. -/
namespace PiRust

open List

namespace ContentBlock

def arguments? : ContentBlock → Option Value
  | .toolCall _ _ arguments _ => some arguments
  | _ => none

def isText : ContentBlock → Bool
  | .text .. => true
  | _ => false

def isThinking : ContentBlock → Bool
  | .thinking .. => true
  | _ => false

def pushText (delta : String) : ContentBlock → ContentBlock
  | .text written textSignature => .text (written ++ delta) textSignature
  | block => block

def pushThinking (delta : String) : ContentBlock → ContentBlock
  | .thinking written thinkingSignature redacted =>
    .thinking (written ++ delta) thinkingSignature redacted
  | block => block

variable (signature : Option String)

def setTextSignature : ContentBlock → ContentBlock
  | .text written _ => .text written signature
  | block => block

def setThinkingSignature : ContentBlock → ContentBlock
  | .thinking written _ redacted => .thinking written signature redacted
  | block => block

def setThoughtSignature : ContentBlock → ContentBlock
  | .toolCall id name arguments _ => .toolCall id name arguments signature
  | block => block

def setId (id : String) : ContentBlock → ContentBlock
  | .toolCall _ name arguments thoughtSignature => .toolCall id name arguments thoughtSignature
  | block => block

def setName (name : String) : ContentBlock → ContentBlock
  | .toolCall id _ arguments thoughtSignature => .toolCall id name arguments thoughtSignature
  | block => block

def setArguments (arguments : Value) : ContentBlock → ContentBlock
  | .toolCall id name _ thoughtSignature => .toolCall id name arguments thoughtSignature
  | block => block

variable (block : ContentBlock)

@[simp] theorem arguments?_pushText (delta : String) :
    (block.pushText delta).arguments? = block.arguments? := by
  cases block <;> rfl

@[simp] theorem arguments?_pushThinking (delta : String) :
    (block.pushThinking delta).arguments? = block.arguments? := by
  cases block <;> rfl

variable (signature : Option String)

@[simp] theorem arguments?_setTextSignature :
    (block.setTextSignature signature).arguments? = block.arguments? := by
  cases block <;> rfl

@[simp] theorem arguments?_setThinkingSignature :
    (block.setThinkingSignature signature).arguments? = block.arguments? := by
  cases block <;> rfl

@[simp] theorem arguments?_setThoughtSignature :
    (block.setThoughtSignature signature).arguments? = block.arguments? := by
  cases block <;> rfl

@[simp] theorem arguments?_setId (id : String) :
    (block.setId id).arguments? = block.arguments? := by
  cases block <;> rfl

@[simp] theorem arguments?_setName (name : String) :
    (block.setName name).arguments? = block.arguments? := by
  cases block <;> rfl

theorem arguments?_setArguments (value : Value) :
    (block.setArguments value).arguments? = block.arguments?.map fun _ => value := by
  cases block <;> rfl

end ContentBlock

def AssistantMessage.toolArguments (message : AssistantMessage) : List Value :=
  message.content.filterMap ContentBlock.arguments?

/-- What one call of a handler works on: its own state, `partial`, and the
events it returns. -/
structure Progress (σ : Type) where
  state : σ
  partialMessage : AssistantMessage
  events : List AssistantMessageEvent

namespace Progress

variable {σ τ : Type} (progress : Progress σ)

variable (event : AssistantMessage → AssistantMessageEvent)

def emit : Progress σ :=
  { progress with events := progress.events ++ [event progress.partialMessage] }

def push (block : ContentBlock) : Progress σ :=
  { progress with
    partialMessage.content := progress.partialMessage.content ++ [block] }

def edit (position : Nat) (change : ContentBlock → ContentBlock) : Progress σ :=
  { progress with
    partialMessage.content := progress.partialMessage.content.modify position change }

def withState (state : σ) : Progress σ := { progress with state := state }

/-- Where the next block goes, as the `u32` that the handlers keep. -/
def position : UInt32 := UInt32.ofNat progress.partialMessage.content.length

def blockCount : Nat := progress.partialMessage.content.length

def focus (get : σ → τ) (set : τ → σ → σ) (work : Progress τ → Progress τ) : Progress σ :=
  let done := work ⟨get progress.state, progress.partialMessage, progress.events⟩
  ⟨set done.state progress.state, done.partialMessage, done.events⟩

@[simp] theorem emit_state :
    (progress.emit event).state = progress.state := rfl

@[simp] theorem emit_message :
    (progress.emit event).partialMessage = progress.partialMessage := rfl

variable (block : ContentBlock)

@[simp] theorem push_state : (progress.push block).state = progress.state := rfl

@[simp] theorem push_content :
    (progress.push block).partialMessage.content = progress.partialMessage.content ++ [block] := rfl

@[simp] theorem push_stopReason :
    (progress.push block).partialMessage.stopReason = progress.partialMessage.stopReason := rfl

variable (position : Nat)

@[simp] theorem edit_state (change : ContentBlock → ContentBlock) :
    (progress.edit position change).state = progress.state := rfl

@[simp] theorem edit_content (change : ContentBlock → ContentBlock) :
    (progress.edit position change).partialMessage.content =
      progress.partialMessage.content.modify position change := rfl

@[simp] theorem edit_stopReason (change : ContentBlock → ContentBlock) :
    (progress.edit position change).partialMessage.stopReason =
      progress.partialMessage.stopReason := rfl

@[simp] theorem emit_blockCount :
    (progress.emit event).blockCount = progress.blockCount := rfl

@[simp] theorem push_blockCount : (progress.push block).blockCount = progress.blockCount + 1 := by
  simp [blockCount, push_content]

@[simp] theorem edit_blockCount (change : ContentBlock → ContentBlock) :
    (progress.edit position change).blockCount = progress.blockCount := by
  simp [blockCount, edit_content]

@[simp] theorem withState_blockCount (state : σ) :
    (progress.withState state).blockCount = progress.blockCount := rfl

theorem foldl_blockCount {α : Type} {step : Progress σ → α → Progress σ} {weight : α → Nat}
    (adds : ∀ work item, (step work item).blockCount = work.blockCount + weight item)
    (items : List α) :
    (items.foldl step progress).blockCount = progress.blockCount + (items.map weight).sum := by
  induction items generalizing progress with
  | nil => rfl
  | cons item rest ih =>
    rw [foldl_cons, ih, adds, map_cons, sum_cons, Nat.add_assoc]

theorem foldl_keeps {α β : Type} {step : Progress σ → α → Progress σ} (reading : Progress σ → β)
    {items : List α}
    (keeps : ∀ item ∈ items, ∀ work, reading (step work item) = reading work) :
    reading (items.foldl step progress) = reading progress := by
  induction items generalizing progress with
  | nil => rfl
  | cons item rest ih =>
    rw [foldl_cons, ih _ fun other member => keeps other (mem_cons_of_mem item member)]
    exact keeps item mem_cons_self progress

theorem foldl_reads {α β : Type} {step : Progress σ → α → Progress σ} (reads : α → List β)
    (Holds : List β → Progress σ → Prop) (keeps : ∀ {seen work} item, Holds seen work →
      Holds (seen ++ reads item) (step work item)) (items : List α) {seen : List β}
    (holds : Holds seen progress) : Holds (seen ++ items.flatMap reads) (items.foldl step progress) := by
  induction items generalizing seen progress with
  | nil => rwa [flatMap_nil, append_nil]
  | cons item rest ih =>
    rw [flatMap_cons, ← append_assoc]
    exact ih _ (keeps item holds)

@[simp] theorem withState_state (state : σ) : (progress.withState state).state = state := rfl

@[simp] theorem withState_message (state : σ) :
    (progress.withState state).partialMessage = progress.partialMessage := rfl

end Progress

end PiRust
