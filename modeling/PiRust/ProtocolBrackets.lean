import PiRust.ProtocolEvents
import PiRust.StreamTrace
import PiRust.Transition

/- Whether the protocol events of a session are well bracketed, prompt by prompt. -/
namespace PiRust.Protocol

open Transition List

abbrev Letter := BlockKind × Char

def blockLetters : ContentBlock → List Letter
  | .text text _ => text.toList.map (.text, ·)
  | .thinking thinking _ _ => thinking.toList.map (.thinking, ·)
  | _ => []

/-- What a message says, in order. -/
def letters (content : List ContentBlock) : List Letter := content.flatMap blockLetters

def StoredAgentMessage.content : StoredAgentMessage → List ContentBlock
  | .assistant content _ _ _ _ _ _ _ _ => content
  | .toolResult _ _ content _ => content

def delta? : AssistantMessageEvent → Option (List Letter × List ContentBlock)
  | .textDelta _ delta message => some (delta.toList.map (.text, ·), message.content)
  | .thinkingDelta _ delta message => some (delta.toList.map (.thinking, ·), message.content)
  | _ => none

/-- What a client that reads the events keeps: the letters that the deltas of the assistant
message open in this prompt have brought, the tool message that is open, whether a turn is
open that this prompt started, and the messages of all turn ends. -/
structure Watch where
  letters : Option (List Letter) := none
  result : Option StoredAgentMessage := none
  turn : Bool := false
  told : List StoredAgentMessage := []

/-- One event that keeps the brackets; none where it breaks them. An assistant message is
opened where none is open, updated with exactly what its deltas brought, and closed before the
end of its prompt; a turn end closes a turn of the prompt; and the end of a prompt has the
messages of all turn ends so far. -/
def Watch.read : ProtocolEvent → Watch → Option Watch
  | .turnStart, watch => some { watch with turn := true }
  | .messageStart (.assistant ..), watch =>
    match watch.letters with
    | none => some { watch with letters := some [] }
    | some _ => none
  | .messageStart (.toolResult id name content isError), watch =>
    match watch.result with
    | none => some { watch with result := some (.toolResult id name content isError) }
    | some _ => none
  | .messageUpdate message event, watch =>
    match watch.letters, delta? event with
    | some before, some (delta, content) =>
      if Protocol.letters message.content = before ++ delta ∧
          Protocol.letters content = before ++ delta then
        some { watch with letters := some (before ++ delta) }
      else none
    | _, _ => none
  | .messageEnd (.assistant ..), watch =>
    match watch.letters with
    | none => none
    | some _ => some { watch with letters := none }
  | .messageEnd (.toolResult id name content isError), watch =>
    if watch.result = some (.toolResult id name content isError) then
      some { watch with result := none }
    else none
  | .turnEnd message toolResults, watch =>
    if watch.turn then
      some { watch with turn := false, told := watch.told ++ message :: toolResults }
    else none
  | .agentEnd messages, watch =>
    if watch.letters = none ∧ watch.result = none ∧ messages = watch.told then
      some { watch with turn := false }
    else none
  | _, watch => some watch

/-- The events keep the brackets from the first to the last. -/
def Bracketed (events : List ProtocolEvent) : Prop :=
  (follow Watch.read events {}).isSome

instance (events : List ProtocolEvent) : Decidable (Bracketed events) :=
  inferInstanceAs (Decidable (_ = true))

def CodingAgentProductEventKind.endsPrompt : CodingAgentProductEventKind → Bool
  | .workflow .promptCompleted | .workflow (.promptFailed _) | .workflow (.promptAborted _) =>
    true
  | _ => false

/-- The events of one prompt, of which only the last ends it. -/
structure Prompt where
  body : List CodingAgentProductEventKind
  last : CodingAgentProductEventKind
  inner : ∀ event ∈ body, event.endsPrompt = false
  ends : last.endsPrompt = true

def Prompt.events (prompt : Prompt) : List CodingAgentProductEventKind :=
  prompt.body ++ [prompt.last]

/-- What the product events of a prompt have brought so far: whether a turn has started, and
of the turn's message whether it had a delta, and whether its completion had to give its
text. -/
structure Heard where
  turn : Bool := false
  deltas : Bool := false
  filled : Bool := false

def Heard.next (heard : Heard) : CodingAgentProductEventKind → Heard
  | .agent .turnStarted => { turn := true }
  | .message (.delta _) | .message (.thinkingDelta _) => { heard with deltas := true }
  | .message (.completed finalText) =>
    if !heard.deltas && !finalText.isEmpty then { heard with filled := true } else heard
  | event => if event.endsPrompt then {} else heard

/-- All of the messages are new, and each comes once. -/
def Fresh (messages more : List StoredAgentMessage) : Prop :=
  more.Nodup ∧ ∀ message ∈ more, message ∉ messages

/-- The turn that ends, if it has a message, was started in its prompt, and neither its message
nor one of its tool results is the same as an earlier one. -/
def TurnFits (adapter : CodingProtocolEventAdapter) (heard : Heard) : Prop :=
  ∀ message, adapter.currentAssistant = some message →
    heard.turn = true ∧
      Fresh adapter.messages (storedAssistant message :: adapter.currentToolResults)

/-- When the next event keeps the brackets: a turn ends as `TurnFits` says; no delta comes after
the completion that gave the text; and a prompt fails, or is aborted, in a turn and with no
message open. -/
def Fits (adapter : CodingProtocolEventAdapter) (heard : Heard) :
    CodingAgentProductEventKind → Prop
  | .agent .turnStarted | .workflow .promptCompleted => TurnFits adapter heard
  | .message (.delta _) | .message (.thinkingDelta _) => heard.filled = false
  | .workflow (.promptFailed _) | .workflow (.promptAborted _) =>
    heard.turn = true ∧ adapter.currentAssistant = none
  | _ => True

/-- Every event fits where it comes. -/
def AllFit (serde : Serde) :
    CodingProtocolEventAdapter → Heard → List CodingAgentProductEventKind → Prop
  | _, _, [] => True
  | adapter, heard, event :: rest =>
    Fits adapter heard event ∧
      AllFit serde (adapter.pushTyped serde event).1 (heard.next event) rest

namespace CodingProtocolEventAdapter

theorem foldl_pushNew_of_fresh (more : List StoredAgentMessage) (messages : List StoredAgentMessage)
    (fresh : Fresh messages more) : more.foldl pushNew messages = messages ++ more := by
  induction more generalizing messages with
  | nil => exact (append_nil messages).symm
  | cons message more ih =>
    obtain ⟨distinct, new⟩ := fresh
    obtain ⟨apart, rest⟩ := nodup_cons.mp distinct
    have pushed : pushNew messages message = messages ++ [message] :=
      if_neg (new message mem_cons_self)
    have later : Fresh (messages ++ [message]) more := by
      refine ⟨rest, fun other inside old => ?_⟩
      rcases mem_append.mp old with before | same
      · exact new other (mem_cons_of_mem message inside) before
      · rw [mem_singleton.mp same] at inside
        exact apart inside
    rw [foldl_cons, pushed, ih _ later, append_assoc, singleton_append]

theorem length_pushNew_le (messages : List StoredAgentMessage) (message : StoredAgentMessage) :
    (pushNew messages message).length ≤ messages.length + 1 := by
  unfold pushNew
  split
  · exact Nat.le_succ _
  · rw [length_append, length_singleton]

theorem length_foldl_pushNew_le (more messages : List StoredAgentMessage) :
    (more.foldl pushNew messages).length ≤ messages.length + more.length := by
  induction more generalizing messages with
  | nil => exact Nat.le_refl _
  | cons message more ih =>
    have first := length_pushNew_le messages message
    have rest := ih (pushNew messages message)
    rw [foldl_cons, length_cons]
    omega

theorem length_foldl_pushNew_lt {more messages : List StoredAgentMessage}
    (stale : ¬ Fresh messages more) :
    (more.foldl pushNew messages).length < messages.length + more.length := by
  induction more generalizing messages with
  | nil => exact absurd ⟨nodup_nil, forall_mem_nil _⟩ stale
  | cons message more ih =>
    rw [foldl_cons, length_cons]
    by_cases old : message ∈ messages
    · have same : pushNew messages message = messages := if_pos old
      have rest := length_foldl_pushNew_le more messages
      rw [same]
      omega
    · have pushed : pushNew messages message = messages ++ [message] := if_neg old
      have later : ¬ Fresh (messages ++ [message]) more := by
        rintro ⟨distinct, new⟩
        apply stale
        refine ⟨nodup_cons.mpr ⟨fun inside => ?_, distinct⟩, fun other inside before => ?_⟩
        · have last := mem_append_right messages (mem_singleton_self message)
          exact new message inside last
        · rcases mem_cons.mp inside with rfl | rest
          · exact old before
          · exact new other rest (mem_append_left [message] before)
      have rest := ih later
      rw [length_append, length_singleton] at rest
      rw [pushed]
      omega

end CodingProtocolEventAdapter

@[simp] theorem letters_append (content more : List ContentBlock) :
    letters (content ++ more) = letters content ++ letters more :=
  flatMap_append

theorem letters_singleton (block : ContentBlock) : letters [block] = blockLetters block := by
  simp [letters]

section

variable (content : List ContentBlock)
include content

variable (text : String)

theorem letters_appendTextContent :
    letters (appendTextContent content text).2 =
      letters content ++ text.toList.map (BlockKind.text, ·) := by
  unfold appendTextContent
  split
  · rename_i existing textSignature last
    rw [letters_append]
    conv_rhs => rw [← dropLast_append_getLast? _ last, letters_append]
    simp [letters_singleton, blockLetters]
  · simp [letters_append, letters_singleton, blockLetters]

theorem letters_appendThinkingContent :
    letters (appendThinkingContent content text).2 =
      letters content ++ text.toList.map (BlockKind.thinking, ·) := by
  unfold appendThinkingContent
  split
  · rename_i existing thinkingSignature redacted last
    rw [letters_append]
    conv_rhs => rw [← dropLast_append_getLast? _ last, letters_append]
    simp [letters_singleton, blockLetters]
  · simp [letters_append, letters_singleton, blockLetters]

theorem appendTextContent_ne_nil : (appendTextContent content text).2 ≠ [] := by
  unfold appendTextContent
  split <;> exact append_ne_nil_of_right_ne_nil _ (cons_ne_nil _ _)

theorem appendThinkingContent_ne_nil : (appendThinkingContent content text).2 ≠ [] := by
  unfold appendThinkingContent
  split <;> exact append_ne_nil_of_right_ne_nil _ (cons_ne_nil _ _)

end

/-- The content of the open message beside the letters that its deltas have brought: they
agree, unless a completion gave the text. -/
structure Spoken (heard : Heard) (content : List ContentBlock) (brought : List Letter) :
    Prop where
  same : heard.filled = false ↔ letters content = brought
  empty : content = [] ↔ heard.deltas = false ∧ heard.filled = false

theorem letters_textContent_ne_nil {text : String} (given : text.isEmpty = false) :
    letters (textContent text) ≠ [] := by
  simp only [textContent, given, Bool.false_eq_true, ↓reduceIte, letters_singleton, blockLetters,
    ne_eq, map_eq_nil_iff]
  intro empty
  rw [String.toList_eq_nil_iff.mp empty] at given
  cases given

theorem Heard.turn_completed (heard : Heard) (finalText : String) :
    (heard.next (.message (.completed finalText))).turn = heard.turn := by
  simp only [Heard.next]
  split <;> rfl

theorem Spoken.completed {heard : Heard} {content : List ContentBlock} {brought : List Letter}
    (spoken : Spoken heard content brought) (finalText : String) :
    Spoken (heard.next (.message (.completed finalText)))
      (if content.isEmpty && !finalText.isEmpty then textContent finalText else content)
      brought := by
  cases given : finalText.isEmpty with
  | true => simpa only [Heard.next, given, Bool.not_true, Bool.and_false, Bool.false_eq_true,
      ↓reduceIte] using spoken
  | false =>
    by_cases empty : content = []
    · obtain ⟨deltas, filled⟩ := spoken.empty.mp empty
      have nothing : brought = [] := by
        rw [← spoken.same.mp filled, empty]
        rfl
      have fills := letters_textContent_ne_nil given
      simp only [Heard.next, given, deltas, empty, Bool.not_false, Bool.and_self, ↓reduceIte,
        isEmpty_nil]
      refine ⟨iff_of_false Bool.noConfusion (nothing ▸ fills), iff_of_false ?_ ?_⟩
      · intro blank
        rw [blank] at fills
        exact fills rfl
      · exact fun both => Bool.noConfusion both.2
    · have kept : heard.next (.message (.completed finalText)) = heard := by
        cases deltas : heard.deltas with
        | true => simp [Heard.next, deltas]
        | false =>
          have filled : heard.filled = true := by
            by_contra unfilled
            exact empty (spoken.empty.mpr ⟨deltas, Bool.eq_false_iff.mpr unfilled⟩)
          have same : { heard with filled := true } = heard := by rw [← filled]
          exact (if_pos (by rw [deltas, given]; rfl)).trans same
      rw [kept, isEmpty_eq_false_iff.mpr empty]
      exact spoken

/-- The adapter as a listener has heard it. -/
structure Follows (adapter : CodingProtocolEventAdapter) (heard : Heard) (watch : Watch) :
    Prop where
  told : watch.told = adapter.messages
  result : watch.result = none
  turn : watch.turn = heard.turn
  shut : adapter.currentAssistant = none →
    adapter.assistantOpen = false ∧ heard.deltas = false ∧ heard.filled = false ∧
      watch.letters = none
  opened : ∀ message, adapter.currentAssistant = some message →
    adapter.assistantOpen = true ∧
      ∃ brought, watch.letters = some brought ∧ Spoken heard message.content brought

theorem assistantMessage_content (adapter : CodingProtocolEventAdapter) :
    (adapter.assistantMessage "").content = [] := by
  by_cases empty : adapter.provider.isEmpty = true
  · simp only [CodingProtocolEventAdapter.assistantMessage, empty, ↓reduceIte]
    rfl
  · simp only [CodingProtocolEventAdapter.assistantMessage, empty, Bool.false_eq_true, ↓reduceIte]
    rfl

namespace Follows

attribute [local simp] Watch.read

open CodingProtocolEventAdapter

variable {serde : Serde} {adapter : CodingProtocolEventAdapter} {heard : Heard} {watch : Watch}

theorem initial (api provider model : String) : Follows (newWithProvider api provider model) {} {}
    where
  told := rfl
  result := rfl
  turn := rfl
  shut _ := ⟨rfl, rfl, rfl, rfl⟩
  opened _ given := absurd given (Option.some_ne_none _).symm

theorem begun (follows : Follows adapter heard watch) (message : AssistantMessage) :
    ∃ brought, follow Watch.read (adapter.messageStart message) watch =
        some { watch with letters := some brought } ∧
      Spoken heard adapter.ensureAssistant.content brought := by
  cases current : adapter.currentAssistant with
  | none =>
    obtain ⟨shut, deltas, filled, letters⟩ := follows.shut current
    refine ⟨[], ?_, ?_⟩
    · simp [messageStart, shut, follow, storedAssistant, Watch.read, letters]
    · rw [ensureAssistant, current, Option.getD_none, assistantMessage_content]
      exact ⟨iff_of_true filled rfl, iff_of_true rfl ⟨deltas, filled⟩⟩
  | some present =>
    obtain ⟨opened, brought, letters, spoken⟩ := follows.opened present current
    refine ⟨brought, ?_, ?_⟩
    · simp [messageStart, opened, follow, ← letters]
    · rw [ensureAssistant, current, Option.getD_some]
      exact spoken

/-- The message after `content` has become what it says. -/
def holding (adapter : CodingProtocolEventAdapter) (message : AssistantMessage) :
    CodingProtocolEventAdapter :=
  { adapter with currentAssistant := some message, assistantOpen := true }

section

variable (follows : Follows adapter heard watch)
include follows

theorem holding_follows {message : AssistantMessage} {later : Heard} {brought : List Letter}
    (turn : later.turn = heard.turn) (spoken : Spoken later message.content brought) :
    Follows (holding adapter message) later { watch with letters := some brought } where
  __ := follows
  turn := follows.turn.trans turn.symm
  shut given := absurd given (Option.some_ne_none message)
  opened other given := by
    cases given
    exact ⟨rfl, brought, rfl, spoken⟩

theorem updated {content : List ContentBlock} {more : List Letter} {event : AssistantMessageEvent}
    (adds : letters content = letters adapter.ensureAssistant.content ++ more)
    (filled : content ≠ []) (delta : delta? event = some (more, content)) :
    let message := { adapter.ensureAssistant with content := content }
    let events := adapter.messageStart message ++ [.messageUpdate (storedAssistant message) event]
    (heard.filled = false →
      ∃ after, follow Watch.read events watch = some after ∧
        Follows (holding adapter message) { heard with deltas := true } after) ∧
      (heard.filled = true → follow Watch.read events watch = none) := by
  intro message events
  obtain ⟨brought, opened, spoken⟩ := follows.begun message
  have reading : follow Watch.read events watch =
      Watch.read (.messageUpdate (storedAssistant message) event)
        { watch with letters := some brought } := by
    rw [follow_append, opened, Option.bind_some, follow_singleton]
  have carried : letters (storedAssistant message).content =
      letters adapter.ensureAssistant.content ++ more := adds
  constructor
  · intro unfilled
    have same := spoken.same.mp unfilled
    refine ⟨{ watch with letters := some (brought ++ more) }, ?_, ?_⟩
    · simp [reading, Watch.read, delta, carried, adds, same]
    · refine follows.holding_follows rfl ⟨?_, ?_⟩
      · exact iff_of_true unfilled (by rw [adds, same])
      · exact iff_of_false filled (fun both => Bool.noConfusion both.1)
  · intro given
    have apart : letters adapter.ensureAssistant.content ≠ brought := fun same =>
      Bool.noConfusion (given.symm.trans (spoken.same.mpr same))
    simp [reading, Watch.read, delta, carried, apart]

theorem message_step (event : CodingAgentMessageProductEvent)
    (fits : Fits adapter heard (.message event)) :
    ∃ after, follow Watch.read (adapter.pushMessage event).2 watch = some after ∧
      Follows (adapter.pushMessage event).1 (heard.next (.message event)) after := by
  cases event with
  | started =>
    by_cases already : adapter.assistantOpen = true
    · refine ⟨watch, ?_, ?_⟩
      · simp [pushMessage, already, follow]
      · simp only [pushMessage, already, ↓reduceIte]
        exact follows
    · obtain ⟨brought, opened, spoken⟩ := follows.begun adapter.ensureAssistant
      refine ⟨{ watch with letters := some brought }, ?_, ?_⟩
      · simpa only [messageStart, pushMessage, already, Bool.false_eq_true, ↓reduceIte] using opened
      · simp only [pushMessage, already, Bool.false_eq_true, ↓reduceIte]
        exact follows.holding_follows rfl spoken
  | delta text =>
    exact (follows.updated (letters_appendTextContent _ text)
      (appendTextContent_ne_nil _ text) rfl).1 fits
  | thinkingDelta text =>
    exact (follows.updated (letters_appendThinkingContent _ text)
      (appendThinkingContent_ne_nil _ text) rfl).1 fits
  | completed finalText =>
    obtain ⟨brought, opened, spoken⟩ := follows.begun
      (if adapter.ensureAssistant.content.isEmpty && !finalText.isEmpty then
        { adapter.ensureAssistant with content := textContent finalText }
      else adapter.ensureAssistant)
    refine ⟨{ watch with letters := some brought }, opened, ?_⟩
    refine follows.holding_follows (heard.turn_completed finalText) ?_
    rw [apply_ite AssistantMessage.content]
    exact spoken.completed finalText

theorem message_breaks (event : CodingAgentMessageProductEvent)
    (unfit : ¬ Fits adapter heard (.message event)) :
    follow Watch.read (adapter.pushMessage event).2 watch = none := by
  cases event with
  | started => exact absurd trivial unfit
  | delta text =>
    exact (follows.updated (letters_appendTextContent _ text)
      (appendTextContent_ne_nil _ text) rfl).2 (Bool.not_eq_false _ ▸ unfit)
  | thinkingDelta text =>
    exact (follows.updated (letters_appendThinkingContent _ text)
      (appendThinkingContent_ne_nil _ text) rfl).2 (Bool.not_eq_false _ ▸ unfit)
  | completed finalText => exact absurd trivial unfit


theorem finished (fits : TurnFits adapter heard) :
    ∃ after, follow Watch.read adapter.finishCurrentTurn.2 watch = some after ∧
      after.told = adapter.finishCurrentTurn.1.messages ∧ after.result = none ∧
      after.letters = none ∧ adapter.finishCurrentTurn.1.currentAssistant = none ∧
      adapter.finishCurrentTurn.1.assistantOpen = false := by
  cases current : adapter.currentAssistant with
  | none =>
    obtain ⟨shut, deltas, filled, letters⟩ := follows.shut current
    simp only [finishCurrentTurn, current]
    exact ⟨watch, rfl, follows.told, follows.result, letters, trivial, shut⟩
  | some message =>
    obtain ⟨turn, fresh⟩ := fits message current
    obtain ⟨-, brought, letters, -⟩ := follows.opened message current
    have kept := foldl_pushNew_of_fresh _ _ fresh
    rw [foldl_cons] at kept
    simp only [finishCurrentTurn, current, follow, Watch.read, storedAssistant, letters,
      Option.bind_some, follows.turn, turn, ↓reduceIte, Option.some.injEq, exists_eq_left',
      follows.told, follows.result, and_true]
    exact kept.symm

theorem unstarted {message : AssistantMessage} (current : adapter.currentAssistant = some message)
    (turn : heard.turn = false) : follow Watch.read adapter.finishCurrentTurn.2 watch = none := by
  obtain ⟨-, brought, letters, -⟩ := follows.opened message current
  simp [finishCurrentTurn, current, follow, Watch.read, storedAssistant, letters, follows.turn,
    turn]

theorem failed (error : String) (turn : heard.turn = true)
    (shut : adapter.currentAssistant = none) :
    ∃ after, follow Watch.read (adapter.pushPromptFailedMessage error).2 watch = some after ∧
      Follows (adapter.pushPromptFailedMessage error).1 {} after := by
  obtain ⟨closed, -, -, letters⟩ := follows.shut shut
  refine ⟨{ watch with
    turn := false, told := watch.told ++ [storedErrorAssistant adapter.api adapter.provider
      adapter.model error] }, ?_, ?_⟩
  · simp [pushPromptFailedMessage, follow, Watch.read, storedErrorAssistant, letters,
      follows.turn, turn, follows.result, follows.told]
  · refine ⟨congrArg (· ++ _) follows.told, follows.result, rfl, ?_, ?_⟩
    · exact fun _ => ⟨closed, rfl, rfl, letters⟩
    · exact fun message given => absurd (shut.symm.trans given) (Option.some_ne_none _).symm

theorem failed_breaks (error : String)
    (unfit : ¬ (heard.turn = true ∧ adapter.currentAssistant = none)) :
    follow Watch.read (adapter.pushPromptFailedMessage error).2 watch = none := by
  cases current : adapter.currentAssistant with
  | none =>
    obtain ⟨-, -, -, letters⟩ := follows.shut current
    have turn : heard.turn = false := Bool.eq_false_iff.mpr fun started => unfit ⟨started, current⟩
    simp [pushPromptFailedMessage, follow, Watch.read, storedErrorAssistant, letters,
      follows.turn, turn]
  | some message =>
    obtain ⟨-, brought, letters, -⟩ := follows.opened message current
    simp [pushPromptFailedMessage, follow, Watch.read, storedErrorAssistant, letters]

theorem tool_step (id name text : String) (isError : Bool) :
    ∃ after, follow Watch.read (adapter.pushToolResult id name text isError).2 watch =
        some after ∧ Follows (adapter.pushToolResult id name text isError).1 heard after := by
  refine ⟨{ watch with result := none }, ?_, ?_⟩
  · simp [pushToolResult, follow, Watch.read, follows.result]
  · exact ⟨follows.told, rfl, follows.turn, follows.shut, follows.opened⟩

end


theorem step (serde : Serde) (follows : Follows adapter heard watch)
    (event : CodingAgentProductEventKind) (fits : Fits adapter heard event) :
    ∃ after, follow Watch.read (adapter.pushTyped serde event).2 watch = some after ∧
      Follows (adapter.pushTyped serde event).1 (heard.next event) after := by
  cases event with
  | message event => exact follows.message_step event fits
  | tool event =>
    cases event with
    | completed id name summary => exact follows.tool_step id name summary false
    | failed id name message => exact follows.tool_step id name message true
    | started => exact ⟨watch, rfl, follows⟩
    | updated => exact ⟨watch, rfl, follows⟩
  | agent event =>
    cases event with
    | turnStarted =>
      obtain ⟨after, read, told, result, letters, none, closed⟩ := follows.finished fits
      refine ⟨{ after with turn := true }, ?_, ?_⟩
      · change follow Watch.read (adapter.finishCurrentTurn.2 ++ [.turnStart]) watch = _
        rw [follow_append, read, Option.bind_some]
        rfl
      · refine ⟨told, result, rfl, fun _ => ⟨closed, rfl, rfl, letters⟩, ?_⟩
        exact fun message given => absurd (none.symm.trans given) (Option.some_ne_none _).symm
    | providerRequestStarted provider model =>
      exact ⟨watch, rfl, follows.told, follows.result, follows.turn, follows.shut, follows.opened⟩
    | _ => exact ⟨watch, rfl, follows⟩
  | workflow event =>
    cases event with
    | promptCompleted =>
      obtain ⟨after, read, told, result, letters, none, closed⟩ := follows.finished fits
      refine ⟨{ after with turn := false }, ?_, ?_⟩
      · change follow Watch.read (adapter.finishCurrentTurn.2 ++ [.agentEnd _]) watch = _
        rw [follow_append, read, Option.bind_some, follow_singleton]
        exact if_pos ⟨letters, result, told.symm⟩
      · refine ⟨told, result, rfl, fun _ => ⟨closed, rfl, rfl, letters⟩, ?_⟩
        exact fun message given => absurd (none.symm.trans given) (Option.some_ne_none _).symm
    | promptFailed error | promptAborted error => exact follows.failed error fits.1 fits.2
    | _ => exact ⟨watch, rfl, follows⟩
  | runtime event | session event => cases event <;> exact ⟨watch, rfl, follows⟩
  | profile event => exact ⟨watch, rfl, follows⟩
  | capability => exact ⟨watch, rfl, follows⟩
  | delegation event | team event => cases event <;> exact ⟨watch, rfl, follows⟩
  | diagnostic => exact ⟨watch, rfl, follows⟩


end Follows

def turnMessages : ProtocolEvent → List StoredAgentMessage
  | .turnEnd message toolResults => message :: toolResults
  | _ => []

theorem read_told {event : ProtocolEvent} {watch after : Watch}
    (read : Watch.read event watch = some after) :
    after.told = watch.told ++ turnMessages event := by
  unfold Watch.read at read
  split at read <;> (try split at read) <;> (try split at read) <;> cases read <;>
    simp [turnMessages]

theorem follow_told {events : List ProtocolEvent} {watch after : Watch}
    (read : follow Watch.read events watch = some after) :
    after.told = watch.told ++ events.flatMap turnMessages := by
  induction events generalizing watch with
  | nil =>
    cases read
    exact (append_nil _).symm
  | cons event events ih =>
    obtain ⟨next, first, rest⟩ := Option.bind_eq_some_iff.mp read
    rw [ih rest, read_told first, flatMap_cons, append_assoc]

namespace CodingProtocolEventAdapter

variable (serde : Serde) (adapter : CodingProtocolEventAdapter)

theorem finishCurrentTurn_grows :
    adapter.finishCurrentTurn.1.messages.length ≤
      adapter.messages.length + (adapter.finishCurrentTurn.2.flatMap turnMessages).length := by
  unfold finishCurrentTurn
  cases adapter.currentAssistant with
  | none => exact Nat.le_add_right _ _
  | some message =>
    have most := length_foldl_pushNew_le
      (storedAssistant message :: adapter.currentToolResults) adapter.messages
    simpa [turnMessages] using most

theorem pushTyped_grows (event : CodingAgentProductEventKind) :
    (adapter.pushTyped serde event).1.messages.length ≤
      adapter.messages.length +
        ((adapter.pushTyped serde event).2.flatMap turnMessages).length := by
  have turn (last : ProtocolEvent) : adapter.finishCurrentTurn.1.messages.length ≤
      adapter.messages.length +
        ((adapter.finishCurrentTurn.2 ++ [last]).flatMap turnMessages).length := by
    have most := adapter.finishCurrentTurn_grows
    rw [flatMap_append, length_append]
    omega
  have failure (error : String) : (adapter.pushPromptFailedMessage error).1.messages.length ≤
      adapter.messages.length +
        ((adapter.pushPromptFailedMessage error).2.flatMap turnMessages).length := by
    simp [pushPromptFailedMessage, turnMessages]
  cases event with
  | message event =>
    cases event with
    | started =>
      simp only [pushTyped, pushMessage]
      split <;> exact Nat.le_add_right _ _
    | _ => exact Nat.le_add_right _ _
  | tool event => cases event <;> exact Nat.le_add_right _ _
  | agent event =>
    cases event with
    | turnStarted => exact turn .turnStart
    | _ => exact Nat.le_add_right _ _
  | workflow event =>
    cases event with
    | promptCompleted => exact turn (.agentEnd adapter.finishCurrentTurn.1.messages)
    | promptFailed error => exact failure error
    | promptAborted reason => exact failure reason
    | _ => exact Nat.le_add_right _ _
  | runtime event | session event => cases event <;> exact Nat.le_add_right _ _
  | profile event => exact Nat.le_add_right _ _
  | capability => exact Nat.le_add_right _ _
  | delegation event => exact Nat.le_add_right _ _
  | team event => exact Nat.le_add_right _ _
  | diagnostic => exact Nat.le_add_right _ _

theorem pushTyped_ends {event : CodingAgentProductEventKind} (ends : event.endsPrompt = true) :
    ∃ events, (adapter.pushTyped serde event).2 =
      events ++ [.agentEnd (adapter.pushTyped serde event).1.messages] := by
  cases event with
  | workflow event =>
    cases event with
    | promptCompleted => exact ⟨_, rfl⟩
    | promptFailed error => exact ⟨[_, _, _], rfl⟩
    | promptAborted reason => exact ⟨[_, _, _], rfl⟩
    | _ => cases ends
  | _ => cases ends

end CodingProtocolEventAdapter

def Lost (adapter : CodingProtocolEventAdapter) (watch : Watch) : Prop :=
  adapter.messages.length < watch.told.length

namespace Lost

open CodingProtocolEventAdapter

variable {serde : Serde} {adapter : CodingProtocolEventAdapter} {watch after : Watch}

theorem of_length {event : CodingAgentProductEventKind}
    (missing : (adapter.pushTyped serde event).1.messages.length <
      watch.told.length + ((adapter.pushTyped serde event).2.flatMap turnMessages).length)
    (read : follow Watch.read (adapter.pushTyped serde event).2 watch = some after) :
    event.endsPrompt = false ∧ Lost (adapter.pushTyped serde event).1 after := by
  have told := congrArg length (follow_told read)
  rw [length_append] at told
  have lost : Lost (adapter.pushTyped serde event).1 after := by
    unfold Lost
    omega
  refine ⟨Bool.eq_false_iff.mpr fun ends => ?_, lost⟩
  obtain ⟨events, split⟩ := adapter.pushTyped_ends serde ends
  rw [split, follow_append] at read
  obtain ⟨middle, -, last⟩ := Option.bind_eq_some_iff.mp read
  rw [follow_singleton] at last
  obtain ⟨⟨-, -, same⟩, gone⟩ := Option.ite_none_right_eq_some.mp last
  have kept : after.told = middle.told := by
    cases gone
    rfl
  rw [← kept] at same
  exact absurd (congrArg length same) (Nat.ne_of_lt lost)

theorem step (lost : Lost adapter watch) {event : CodingAgentProductEventKind}
    (read : follow Watch.read (adapter.pushTyped serde event).2 watch = some after) :
    event.endsPrompt = false ∧ Lost (adapter.pushTyped serde event).1 after := by
  have most := adapter.pushTyped_grows serde event
  unfold Lost at lost
  exact of_length (by omega) read

end Lost

variable {adapter : CodingProtocolEventAdapter}

theorem finishCurrentTurn_loses {message : AssistantMessage}
    (current : adapter.currentAssistant = some message)
    (stale : ¬ Fresh adapter.messages (storedAssistant message :: adapter.currentToolResults)) :
    adapter.finishCurrentTurn.1.messages.length <
      adapter.messages.length + (adapter.finishCurrentTurn.2.flatMap turnMessages).length := by
  have fewer := CodingProtocolEventAdapter.length_foldl_pushNew_lt stale
  simpa [CodingProtocolEventAdapter.finishCurrentTurn, current, turnMessages] using fewer

namespace Follows

open CodingProtocolEventAdapter

variable {serde : Serde} {adapter : CodingProtocolEventAdapter} {heard : Heard}
  {watch after : Watch}

theorem turn_breaks (follows : Follows adapter heard watch) (unfit : ¬ TurnFits adapter heard)
    (last : ProtocolEvent)
    (read : follow Watch.read (adapter.finishCurrentTurn.2 ++ [last]) watch = some after) :
    adapter.finishCurrentTurn.1.messages.length < watch.told.length +
      ((adapter.finishCurrentTurn.2 ++ [last]).flatMap turnMessages).length := by
  unfold TurnFits at unfit
  push Not at unfit
  obtain ⟨message, current, stale⟩ := unfit
  cases turn : heard.turn with
  | false =>
    rw [follow_append, follows.unstarted current turn] at read
    cases read
  | true =>
    have fewer := finishCurrentTurn_loses current (stale turn)
    rw [follows.told, flatMap_append, length_append]
    omega

theorem breaks (follows : Follows adapter heard watch) {event : CodingAgentProductEventKind}
    (unfit : ¬ Fits adapter heard event)
    (read : follow Watch.read (adapter.pushTyped serde event).2 watch = some after) :
    event.endsPrompt = false ∧ Lost (adapter.pushTyped serde event).1 after := by
  cases event with
  | message event =>
    have broken := follows.message_breaks event unfit
    exact absurd (broken.symm.trans read) (Option.some_ne_none _).symm
  | agent event =>
    cases event with
    | turnStarted => exact Lost.of_length (follows.turn_breaks unfit _ read) read
    | _ => exact absurd trivial unfit
  | workflow event =>
    cases event with
    | promptCompleted => exact Lost.of_length (follows.turn_breaks unfit _ read) read
    | promptFailed error | promptAborted error =>
      have broken := follows.failed_breaks error unfit
      exact absurd (broken.symm.trans read) (Option.some_ne_none _).symm
    | _ => exact absurd trivial unfit
  | _ => exact absurd trivial unfit

end Follows

/-- Events of which the last, if there is one, ends a prompt. -/
def Closed (events : List CodingAgentProductEventKind) : Prop :=
  ∀ last, events.getLast? = some last → last.endsPrompt = true

variable {events : List CodingAgentProductEventKind}
variable {event : CodingAgentProductEventKind}

theorem Closed.tail (closed : Closed (event :: events)) : Closed events := by
  intro last given
  exact closed last (by rw [getLast?_cons, given, Option.getD_some])

theorem Closed.ne_nil (closed : Closed (event :: events)) (inner : event.endsPrompt = false) :
    events ≠ [] := by
  rintro rfl
  have ends := closed event rfl
  rw [inner] at ends
  cases ends

theorem closed_prompts (prompts : List Prompt) : Closed (prompts.flatMap Prompt.events) := by
  induction prompts with
  | nil => exact fun last given => absurd given (Option.some_ne_none last).symm
  | cons prompt prompts ih =>
    intro last given
    rw [flatMap_cons, getLast?_append] at given
    cases rest : (prompts.flatMap Prompt.events).getLast? with
    | some later =>
      rw [rest] at given
      cases given
      exact ih last rest
    | none =>
      rw [rest, Option.none_or, Prompt.events, getLast?_concat] at given
      cases given
      exact prompt.ends

theorem Lost.run {serde : Serde} {watch : Watch}
    (lost : Lost adapter watch) (closed : Closed events) (given : events ≠ []) :
    follow Watch.read (CodingProtocolEventAdapter.pushAll serde events adapter).2 watch =
      none := by
  induction events generalizing adapter watch with
  | nil => exact absurd rfl given
  | cons event events ih =>
    simp only [CodingProtocolEventAdapter.pushAll, follow_append]
    cases read : follow Watch.read (adapter.pushTyped serde event).2 watch with
    | none => rfl
    | some after =>
      obtain ⟨inner, still⟩ := lost.step read
      exact ih still closed.tail (closed.ne_nil inner)

theorem Follows.run {serde : Serde} {heard : Heard}
    {watch : Watch} (follows : Follows adapter heard watch) (closed : Closed events) :
    (follow Watch.read (CodingProtocolEventAdapter.pushAll serde events adapter).2
        watch).isSome ↔ AllFit serde adapter heard events := by
  induction events generalizing adapter heard watch with
  | nil => exact iff_of_true rfl trivial
  | cons event events ih =>
    simp only [CodingProtocolEventAdapter.pushAll, follow_append, AllFit]
    by_cases fits : Fits adapter heard event
    · obtain ⟨after, read, next⟩ := follows.step serde event fits
      rw [read, Option.bind_some, ih next closed.tail]
      exact (and_iff_right fits).symm
    · refine iff_of_false ?_ fun both => fits both.1
      cases read : follow Watch.read (adapter.pushTyped serde event).2 watch with
      | none => exact Bool.false_ne_true
      | some after =>
        obtain ⟨inner, lost⟩ := follows.breaks fits read
        rw [Option.bind_some, lost.run closed.tail (closed.ne_nil inner)]
        exact Bool.false_ne_true

/-- The protocol events of any prompts, one after the other, are well bracketed exactly if
every product event fits where it comes. -/
theorem turns_bracketed_iff (serde : Serde) (api provider model : String) (prompts : List Prompt) :
    Bracketed (CodingProtocolEventAdapter.pushAll serde (prompts.flatMap Prompt.events)
        (CodingProtocolEventAdapter.newWithProvider api provider model)).2 ↔
      AllFit serde (CodingProtocolEventAdapter.newWithProvider api provider model) {}
        (prompts.flatMap Prompt.events) :=
  (Follows.initial api provider model).run (closed_prompts prompts)

def abortedPrompt : Prompt where
  body := [.agent .turnStarted, .message .started]
  last := .workflow (.promptAborted "stop")
  inner := by decide
  ends := rfl

/-- The message that was open is not closed before the next one starts. -/
theorem abortedPrompt_breaks :
    ¬ Bracketed (CodingProtocolEventAdapter.pushAll Serde.silent
      ([abortedPrompt].flatMap Prompt.events)
      (CodingProtocolEventAdapter.newWithProvider "faux" "faux-provider" "faux-model")).2 := by
  decide

/-- Two prompts with the same answer: the second answer is missing at the end. -/
example : let answer : Prompt :=
    { body := [.agent .turnStarted, .message (.delta "yes")]
      last := .workflow .promptCompleted
      inner := by decide
      ends := rfl }
    ¬ Bracketed (CodingProtocolEventAdapter.pushAll Serde.silent
      ([answer, answer].flatMap Prompt.events)
      (CodingProtocolEventAdapter.newWithProvider "faux" "faux-provider" "faux-model")).2 := by
  decide

end PiRust.Protocol
