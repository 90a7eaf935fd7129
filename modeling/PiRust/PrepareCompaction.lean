import Mathlib.Data.List.DropRight
import PiRust.Compaction

namespace PiRust.Compaction

open List

variable (serde : Serde) (settings : CompactionSettings)

/-- What the scan has counted once it keeps exactly this tail. -/
def tailTokens (tail : List AgentMessage) : UInt32 :=
  tail.foldr (fun message total => total + estimateTokens serde [message]) 0

/-- The longest tail that the budget reaches message by message from the end; the
last message is in it whatever it costs. -/
def recentTail : List AgentMessage → List AgentMessage
  | [] => []
  | message :: rest =>
    if (recentTail rest).length = rest.length ∧
        (rest = [] ∨ tailTokens serde (message :: rest) ≤ settings.keepRecentTokens) then
      message :: rest
    else recentTail rest

variable (messages : List AgentMessage)

theorem recentTail_suffix : recentTail serde settings messages <:+ messages := by
  induction messages with
  | nil => exact suffix_rfl
  | cons message rest ih =>
    simp only [recentTail]
    split
    · exact suffix_rfl
    · exact ih.trans (suffix_cons message rest)

theorem take_append_recentTail :
    messages.take (messages.length - (recentTail serde settings messages).length) ++
      recentTail serde settings messages = messages := by
  obtain ⟨front, split⟩ := recentTail_suffix serde settings messages
  have size := congrArg length split
  rw [length_append] at size
  have count : messages.length - (recentTail serde settings messages).length = front.length := by
    omega
  calc messages.take (messages.length - (recentTail serde settings messages).length) ++
        recentTail serde settings messages
      = (front ++ recentTail serde settings messages).take front.length ++
          recentTail serde settings messages := by rw [count, split]
    _ = messages := by rw [take_left, split]

/-- From the last message, which it always takes, the budget pays for the messages back to a
position. -/
def Reaches (position : Nat) : Prop :=
  ∀ first, position ≤ first → first + 1 < messages.length →
    tailTokens serde (messages.drop first) ≤ settings.keepRecentTokens

theorem reaches_cons_zero (message : AgentMessage) (rest : List AgentMessage) :
    Reaches serde settings (message :: rest) 0 ↔
      (rest = [] ∨ tailTokens serde (message :: rest) ≤ settings.keepRecentTokens) ∧
        Reaches serde settings rest 0 := by
  refine ⟨fun reaches => ⟨?_, fun first _ more => ?_⟩,
    fun ⟨head, tail⟩ first _ more => ?_⟩
  · by_cases none : rest = []
    · exact .inl none
    · have more : 0 + 1 < (message :: rest).length :=
        Nat.succ_lt_succ (length_pos_iff.mpr none)
      exact .inr (reaches 0 (Nat.zero_le 0) more)
  · exact reaches (first + 1) (Nat.zero_le _) (Nat.succ_lt_succ more)
  · cases first with
    | zero =>
      refine head.resolve_left ?_
      rintro rfl
      exact absurd more (Nat.lt_irrefl 1)
    | succ first => exact tail first (Nat.zero_le _) (Nat.lt_of_succ_lt_succ more)

theorem reaches_cons_succ (message : AgentMessage) (rest : List AgentMessage) (position : Nat) :
    Reaches serde settings (message :: rest) (position + 1) ↔
      Reaches serde settings rest position := by
  refine ⟨fun reaches first low more => ?_, fun reaches first low more => ?_⟩
  · exact reaches (first + 1) (Nat.succ_le_succ low) (Nat.succ_lt_succ more)
  · obtain ⟨later, rfl⟩ := Nat.exists_eq_add_of_le' low
    exact reaches (later + position) (Nat.le_add_left _ _) (Nat.lt_of_succ_lt_succ more)

theorem reaches_iff (position : Nat) (inside : position < messages.length) :
    Reaches serde settings messages position ↔
      messages.length - (recentTail serde settings messages).length ≤ position := by
  induction messages generalizing position with
  | nil => cases inside
  | cons message rest ih =>
    have shorter := (recentTail_suffix serde settings rest).length_le
    have whole : Reaches serde settings rest 0 ↔
        (recentTail serde settings rest).length = rest.length := by
      cases rest with
      | nil => exact iff_of_true (fun _ _ more => absurd more (Nat.not_lt_zero _)) rfl
      | cons next rest =>
        rw [ih 0 (Nat.succ_pos _)]
        omega
    cases position with
    | zero =>
      rw [reaches_cons_zero, whole, and_comm, recentTail]
      split
      · exact iff_of_true ‹_› (Nat.sub_self _).le
      · exact iff_of_false ‹_› (by rw [length_cons]; omega)
    | succ position =>
      rw [reaches_cons_succ, ih position (Nat.lt_of_succ_lt_succ inside), recentTail, length_cons]
      split
      · rw [length_cons]
        omega
      · omega

@[simp] theorem recentTail_singleton (message : AgentMessage) :
    recentTail serde settings [message] = [message] := by
  simp [recentTail]

theorem recentTail_append_stop (earlier tail : List AgentMessage) (message : AgentMessage)
    (spent : recentTail serde settings (message :: tail) = tail) :
    recentTail serde settings (earlier ++ message :: tail) = tail := by
  induction earlier with
  | nil => exact spent
  | cons first rest ih =>
    have short : (recentTail serde settings (rest ++ message :: tail)).length ≠
        (rest ++ message :: tail).length := by
      rw [ih]
      simp only [length_append, length_cons]
      omega
    simp only [cons_append, recentTail]
    rw [if_neg (fun grows => short grows.1), ih]

theorem scanBack_skip (newest : List AgentMessage) (keepTokens : UInt32) :
    scanBack serde settings newest [] keepTokens =
      scanBack serde settings (newest.dropWhile AgentMessage.isToolResult) [] keepTokens := by
  induction newest with
  | nil => rfl
  | cons message before ih =>
    cases result : message.isToolResult with
    | true => simp [scanBack, result, ih]
    | false => simp [result]

theorem scanBack_tail (before keepRecent : List AgentMessage) (started : keepRecent ≠ [])
    (within : recentTail serde settings keepRecent = keepRecent) :
    scanBack serde settings before keepRecent (tailTokens serde keepRecent) =
      ((before.reverse ++ keepRecent).length -
          (recentTail serde settings (before.reverse ++ keepRecent)).length,
        recentTail serde settings (before.reverse ++ keepRecent)) := by
  induction before generalizing keepRecent with
  | nil => simp [scanBack, within]
  | cons message before ih =>
    have joined : (message :: before).reverse ++ keepRecent =
        before.reverse ++ message :: keepRecent := by simp
    have count : tailTokens serde keepRecent + estimateTokens serde [message] =
        tailTokens serde (message :: keepRecent) := rfl
    rw [joined]
    simp only [scanBack, started, and_false, ↓reduceIte, ne_eq, not_false_eq_true, and_true, count]
    by_cases exceeds : settings.keepRecentTokens < tailTokens serde (message :: keepRecent)
    · have stops : recentTail serde settings (message :: keepRecent) = keepRecent := by
        simp only [recentTail, within, started, false_or, true_and]
        rw [if_neg (UInt32.not_le.mpr exceeds)]
      rw [if_pos exceeds, recentTail_append_stop serde settings _ _ _ stops]
      simp only [length_append, length_reverse, length_cons, Prod.mk.injEq, and_true]
      omega
    · have grows : recentTail serde settings (message :: keepRecent) = message :: keepRecent := by
        simp only [recentTail, within, started, false_or, true_and]
        rw [if_pos (UInt32.not_lt.mp exceeds)]
      rw [if_neg exceeds, ih _ (cons_ne_nil message keepRecent) grows]

theorem scanBack_eq :
    scanBack serde settings messages.reverse [] 0 =
      let core := messages.rdropWhile AgentMessage.isToolResult
      (core.length - (recentTail serde settings core).length, recentTail serde settings core) := by
  have core : messages.rdropWhile AgentMessage.isToolResult =
      (messages.reverse.dropWhile AgentMessage.isToolResult).reverse := rfl
  rw [scanBack_skip, core]
  cases newest : messages.reverse.dropWhile AgentMessage.isToolResult with
  | nil => rfl
  | cons message before =>
    have plain : message.isToolResult = false := by
      have head := head_dropWhile_not AgentMessage.isToolResult (l := messages.reverse)
      simp only [newest] at head
      simpa using head
    have first : (0 : UInt32) + estimateTokens serde [message] = tailTokens serde [message] := rfl
    simp only [scanBack, plain, Bool.false_eq_true, false_and, ↓reduceIte, ne_eq,
      not_true_eq_false, and_false, first]
    rw [scanBack_tail serde settings before [message] (cons_ne_nil _ _) (by simp)]
    simp

theorem prepareCompaction_under
    (under : estimateTokens serde messages ≤ settings.reserveTokens + settings.keepRecentTokens) :
    prepareCompaction serde settings messages = ([], messages) := by
  by_cases none : messages = []
  · simp [prepareCompaction, none]
  · simp [prepareCompaction, none, under]

theorem prepareCompaction_over
    (exceeds : ¬ estimateTokens serde messages ≤
      settings.reserveTokens + settings.keepRecentTokens) :
    prepareCompaction serde settings messages =
      let core := messages.rdropWhile AgentMessage.isToolResult
      let kept := recentTail serde settings core
      (core.take (core.length - kept.length), kept) := by
  have some : messages ≠ [] := by
    rintro rfl
    exact exceeds (UInt32.zero_le)
  simp only [prepareCompaction, some, exceeds, ↓reduceIte, scanBack_eq, Prod.mk.injEq, and_true]
  have split : messages.rdropWhile AgentMessage.isToolResult ++
      messages.rtakeWhile AgentMessage.isToolResult = messages :=
    rdropWhile_append_rtakeWhile
  generalize messages.rdropWhile AgentMessage.isToolResult = core at split
  rw [← split, take_append_of_le_length (Nat.sub_le _ _)]

theorem prepareCompaction_core
    (exceeds : ¬ estimateTokens serde messages ≤
      settings.reserveTokens + settings.keepRecentTokens) :
    (prepareCompaction serde settings messages).1 ++ (prepareCompaction serde settings messages).2 =
      messages.rdropWhile AgentMessage.isToolResult := by
  rw [prepareCompaction_over serde settings messages exceeds]
  exact take_append_recentTail serde settings (messages.rdropWhile AgentMessage.isToolResult)

/-- Nothing is lost exactly when nothing is cut or the last message is no tool result. -/
theorem prepareCompaction_partition_iff (messages : List AgentMessage) :
    (prepareCompaction serde settings messages).1 ++ (prepareCompaction serde settings messages).2 =
        messages ↔
      estimateTokens serde messages ≤ settings.reserveTokens + settings.keepRecentTokens ∨
        ∀ last, messages.getLast? = some last → last.isToolResult = false := by
  by_cases under : estimateTokens serde messages ≤ settings.reserveTokens + settings.keepRecentTokens
  · simp [prepareCompaction_under serde settings messages under, under]
  · rw [prepareCompaction_core serde settings messages under, rdropWhile_eq_self_iff]
    simp only [under, false_or, Bool.not_eq_true]
    constructor
    · intro plain last found
      have present : messages ≠ [] := by
        rintro rfl
        cases found
      rw [getLast?_eq_some_getLast present] at found
      cases found
      exact plain present
    · intro plain present
      exact plain _ (getLast?_eq_some_getLast present)

/-- No budget at all: the tool result at the end is neither summarized nor kept. -/
theorem prepareCompaction_loses_result :
    let serde : Serde := ⟨fun _ => none, fun _ => "", rfl⟩
    let messages : List AgentMessage :=
      [.userText "u" "hello", .toolResult "t" "call" "read" false [.text "result" none]]
    (prepareCompaction serde ⟨true, 0, 0⟩ messages).1 ++
      (prepareCompaction serde ⟨true, 0, 0⟩ messages).2 ≠ messages := by
  intro serde messages
  rw [ne_eq, prepareCompaction_partition_iff]
  intro whole
  rcases whole with under | plain
  · revert under
    decide
  · cases plain _ rfl

end PiRust.Compaction
