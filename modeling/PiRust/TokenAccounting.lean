import PiRust.BranchPreparation
import PiRust.CappedSums

/- The token counts of `compaction/estimate.rs`, `compaction/prepare.rs` and `branch_summary.rs`
against exact counts, with their additions as those of a build that checks them. -/
namespace PiRust.TokenAccounting

open Compaction BranchSummary CappedSums List

/-- `u32::MAX`. -/
def largest : Nat := 2 ^ 32 - 1

section weights

variable (serde : Serde)

def blockTexts : ContentBlock → List String
  | .text text _ => [text]
  | .toolCall _ name arguments _ => [name, serde.print arguments]
  | .thinking thinking _ _ => [thinking]
  | .image _ _ => []

def blockImages : ContentBlock → Nat
  | .image _ _ => 1
  | _ => 0

def countedTexts : AgentMessage → List String
  | .userText _ text => [text]
  | .assistant _ message => message.content.flatMap (blockTexts serde)
  | .toolResult _ _ _ _ content => content.flatMap (blockTexts serde)
  | .systemPrompt _ text => [text]
  | .compactionSummary _ summary _ => [summary]
  | .bashExecution _ command output _ _ _ _ excludeFromContext =>
    if excludeFromContext then [] else [command, output]
  | .custom _ _ content _ => content.flatMap (blockTexts serde)
  | .branchSummary _ summary _ => [summary]

def countedImages : AgentMessage → Nat
  | .assistant _ message => total blockImages message.content
  | .toolResult _ _ _ _ content => total blockImages content
  | .custom _ _ content _ => total blockImages content
  | _ => 0

def exactText (text : String) : Nat := (text.utf8ByteSize + 3) / 4

/-- The length of a text is taken as a `u32`. -/
def truncatedText (text : String) : Nat := (text.utf8ByteSize % 2 ^ 32 + 3) / 4

def weight (textTokens : String → Nat) (message : AgentMessage) : Nat :=
  total textTokens (countedTexts serde message) + 1200 * countedImages message

def exactTokens (message : AgentMessage) : Nat := weight serde exactText message

def truncatedTokens (message : AgentMessage) : Nat := weight serde truncatedText message

/-- The counted texts are shorter than 4 GiB, or count for all that a `u32` holds as they are. -/
def CountsRight (messages : List AgentMessage) : Prop :=
  (∀ message ∈ messages, ∀ text ∈ countedTexts serde message, text.utf8ByteSize < 2 ^ 32) ∨
    largest ≤ total (truncatedTokens serde) messages

end weights

section estimates

variable {serde : Serde}

theorem saturatingAdd_toNat (a b : UInt32) :
    (saturatingAdd a b).toNat = capped largest (a.toNat + b.toNat) := by
  unfold saturatingAdd capped largest
  split
  · rw [UInt32.toNat_add]
    omega
  · rw [UInt32.toNat_ofNat']
    omega

theorem foldl_saturatingAdd {α : Type} (count : α → UInt32) (items : List α) (start : UInt32) :
    (items.foldl (fun sum x => saturatingAdd sum (count x)) start).toNat =
      capped largest (start.toNat + total (fun x => (count x).toNat) items) := by
  induction items generalizing start with
  | nil =>
    have := start.toNat_lt
    rw [foldl_nil, total_nil, Nat.add_zero, capped_of_le]
    unfold largest
    omega
  | cons x items ih =>
    rw [foldl_cons, ih, saturatingAdd_toNat, capped_capped_add, total_cons, Nat.add_assoc]

variable (text : String)

theorem truncatedText_le : truncatedText text ≤ largest := by
  unfold truncatedText largest
  omega

theorem estimateTextTokens_toNat : (estimateTextTokens text).toNat = truncatedText text := by
  have := truncatedText_le text
  unfold estimateTextTokens truncatedText largest at *
  simp only [UInt32.toNat_ofNat'] at *
  omega

def blockWeight (serde : Serde) (textTokens : String → Nat) (block : ContentBlock) : Nat :=
  total textTokens (blockTexts serde block) + 1200 * blockImages block

theorem estimateBlockTokens_toNat (block : ContentBlock) :
    (estimateBlockTokens serde block).toNat =
      capped largest (blockWeight serde truncatedText block) := by
  cases block with
  | text text signature =>
    have := truncatedText_le text
    simp [estimateBlockTokens, estimateTextTokens_toNat, blockWeight, blockTexts, blockImages,
      capped_of_le this]
  | thinking thinking signature redacted =>
    have := truncatedText_le thinking
    simp [estimateBlockTokens, estimateTextTokens_toNat, blockWeight, blockTexts, blockImages,
      capped_of_le this]
  | image data mimeType =>
    simp [estimateBlockTokens, blockWeight, blockTexts, blockImages, capped, largest]
  | toolCall id name arguments signature =>
    simp [estimateBlockTokens, saturatingAdd_toNat, estimateTextTokens_toNat, blockWeight,
      blockTexts, blockImages]

theorem total_blockWeight (textTokens : String → Nat) (content : List ContentBlock) :
    total (blockWeight serde textTokens) content =
      total textTokens (content.flatMap (blockTexts serde)) + 1200 * total blockImages content := by
  induction content with
  | nil => rfl
  | cons block content ih =>
    rw [total_cons, ih, flatMap_cons, total_append, total_cons, blockWeight]
    omega

theorem estimateContentTokens_toNat (content : List ContentBlock) :
    (estimateContentTokens serde content).toNat = capped largest
      (total truncatedText (content.flatMap (blockTexts serde)) +
        1200 * total blockImages content) := by
  rw [estimateContentTokens, foldl_map, foldl_saturatingAdd]
  simp only [estimateBlockTokens_toNat]
  rw [← total_blockWeight, ← capped_total]
  simp

variable (message : AgentMessage)

theorem estimateMessageTokens_toNat :
    (estimateMessageTokens serde message).toNat =
      capped largest (truncatedTokens serde message) := by
  cases message with
  | userText id text | systemPrompt id text | compactionSummary id text | branchSummary id text =>
    have := truncatedText_le text
    simp [estimateMessageTokens, estimateTextTokens_toNat, truncatedTokens, weight, countedTexts,
      countedImages, capped_of_le this]
  | assistant id message => exact estimateContentTokens_toNat message.content
  | toolResult id callId name isError content => exact estimateContentTokens_toNat content
  | custom id customType content display => exact estimateContentTokens_toNat content
  | bashExecution id command output exitCode cancelled truncated path excludeFromContext =>
    cases excludeFromContext with
    | true => simp [estimateMessageTokens, truncatedTokens, weight, countedTexts, countedImages,
        capped]
    | false => simp [estimateMessageTokens, saturatingAdd_toNat, estimateTextTokens_toNat,
        truncatedTokens, weight, countedTexts, countedImages]

theorem estimateTokens_toNat (messages : List AgentMessage) :
    (estimateTokens serde messages).toNat =
      capped largest (total (truncatedTokens serde) messages) := by
  rw [estimateTokens, foldl_saturatingAdd]
  simp only [estimateMessageTokens_toNat]
  rw [← capped_total]
  simp

theorem truncatedText_le_exact : truncatedText text ≤ exactText text := by
  have := Nat.mod_le text.utf8ByteSize (2 ^ 32)
  unfold truncatedText exactText
  omega

theorem truncatedText_eq_iff :
    truncatedText text = exactText text ↔ text.utf8ByteSize < 2 ^ 32 := by
  unfold truncatedText exactText
  omega

theorem truncatedTokens_le_exact : truncatedTokens serde message ≤ exactTokens serde message :=
  Nat.add_le_add_right (total_le truncatedText_le_exact _) _

theorem truncatedTokens_eq_iff :
    truncatedTokens serde message = exactTokens serde message ↔
      ∀ text ∈ countedTexts serde message, text.utf8ByteSize < 2 ^ 32 := by
  simp [truncatedTokens, exactTokens, weight, total_eq_iff truncatedText_le_exact,
    truncatedText_eq_iff]

theorem countsRight_iff (messages : List AgentMessage) :
    capped largest (total (truncatedTokens serde) messages) =
        capped largest (total (exactTokens serde) messages) ↔ CountsRight serde messages := by
  rw [capped_eq_iff (total_le truncatedTokens_le_exact messages),
    total_eq_iff truncatedTokens_le_exact]
  simp [truncatedTokens_eq_iff, CountsRight]

theorem plainAdd_eq (a b : UInt32) :
    plainAdd a b = if a.toNat + b.toNat ≤ largest then some (a + b) else none := by
  unfold plainAdd largest
  refine if_congr ?_ rfl rfl
  omega

theorem eq_of_plainAdd {a b sum : UInt32} (added : plainAdd a b = some sum) : sum = a + b := by
  unfold plainAdd at added
  split at added <;> cases added
  rfl

theorem toNat_add_of_le {a b : UInt32} (fits : a.toNat + b.toNat ≤ largest) :
    (a + b).toNat = a.toNat + b.toNat := by
  unfold largest at fits
  rw [UInt32.toNat_add]
  omega

end estimates

section context

variable (serde : Serde)

/-- `estimate_context_tokens`: none where its addition overflows. -/
def checkedContextTokens (messages : List AgentMessage) : Option ContextUsageEstimate :=
  match lastValidAssistantUsage messages with
  | none =>
    let trailing := estimateTokens serde messages
    some ⟨trailing, 0, trailing, none⟩
  | some (usage, index) =>
    let usageTokens := calculateContextTokens usage
    let trailingTokens :=
      if index + 1 < messages.length then estimateTokens serde (messages.drop (index + 1)) else 0
    (plainAdd usageTokens trailingTokens).map fun tokens =>
      ⟨tokens, usageTokens, trailingTokens, some index⟩

theorem estimateContextTokens_of_checked {messages : List AgentMessage}
    {estimate : ContextUsageEstimate} (checked : checkedContextTokens serde messages = some estimate) :
    estimateContextTokens serde messages = estimate := by
  unfold checkedContextTokens at checked
  split at checked <;> rename_i found <;> rw [estimateContextTokens, found]
  · exact Option.some.inj checked
  · obtain ⟨tokens, added, rfl⟩ := Option.map_eq_some_iff.mp checked
    rw [eq_of_plainAdd added]

def exactUsage (usage : Usage) : Nat :=
  if 0 < usage.totalTokens then usage.totalTokens.toNat
  else usage.input.toNat + usage.output.toNat + usage.cacheRead.toNat + usage.cacheWrite.toNat

def anchored (messages : List AgentMessage) : Nat × List AgentMessage :=
  match lastValidAssistantUsage messages with
  | none => (0, messages)
  | some (usage, index) => (exactUsage usage, messages.drop (index + 1))

/-- No addition overflows, and the totals are the exact ones, capped. -/
def ContextExact (messages : List AgentMessage) : Prop :=
  ∃ estimate, checkedContextTokens serde messages = some estimate ∧
    estimate.usageTokens.toNat = capped largest (anchored messages).1 ∧
    estimate.trailingTokens.toNat =
      capped largest (total (exactTokens serde) (anchored messages).2) ∧
    estimate.tokens.toNat =
      capped largest ((anchored messages).1 + total (exactTokens serde) (anchored messages).2)

/-- The trailing messages count right, and their tokens and those of the usage fit together. -/
def ContextFits (messages : List AgentMessage) : Prop :=
  CountsRight serde (anchored messages).2 ∧
    capped largest (anchored messages).1 +
      capped largest (total (truncatedTokens serde) (anchored messages).2) ≤ largest

variable {serde}

theorem calculateContextTokens_toNat (usage : Usage) :
    (calculateContextTokens usage).toNat = capped largest (exactUsage usage) := by
  unfold calculateContextTokens exactUsage
  split
  · have := usage.totalTokens.toNat_lt
    rw [capped_of_le]
    unfold largest
    omega
  · rw [saturatingAdd_toNat, saturatingAdd_toNat, saturatingAdd_toNat]
    unfold capped
    omega

theorem estimate_behind (index : Nat) (messages : List AgentMessage) :
    (if index + 1 < messages.length then estimateTokens serde (messages.drop (index + 1)) else 0) =
      estimateTokens serde (messages.drop (index + 1)) := by
  split
  · rfl
  · next past =>
    rw [drop_eq_nil_of_le (Nat.le_of_not_lt past)]
    rfl

theorem contextExact_iff (messages : List AgentMessage) :
    ContextExact serde messages ↔ ContextFits serde messages := by
  unfold ContextExact ContextFits anchored checkedContextTokens
  cases lastValidAssistantUsage messages with
  | none =>
    have nothing : capped largest 0 = 0 := capped_of_le (Nat.zero_le largest)
    have counted : (estimateTokens serde messages).toNat = _ := estimateTokens_toNat messages
    simp [exists_eq_left', counted, countsRight_iff, nothing, capped_le]
  | some anchor =>
    obtain ⟨usage, index⟩ := anchor
    have counted : (estimateTokens serde (messages.drop (index + 1))).toNat = _ :=
      estimateTokens_toNat _
    have told := calculateContextTokens_toNat usage
    simp only [estimate_behind, plainAdd_eq, counted, told, ← countsRight_iff]
    split
    · next fits =>
      have sum := toNat_add_of_le (told.symm ▸ counted.symm ▸ fits)
      simp only [Option.map_some, Option.some.injEq, exists_eq_left', counted, told, sum, true_and,
        fits, and_true, and_iff_left_iff_imp]
      intro right
      rw [right] at fits ⊢
      unfold capped at fits ⊢
      omega
    · next overflows => simp [overflows]

end context

section compaction

variable (serde : Serde) (settings : CompactionSettings)

/-- The backward scan of `prepare_compaction`, with `keep_tokens` at its end. -/
def checkedScan : List AgentMessage → List AgentMessage → UInt32 →
    Option (Nat × List AgentMessage × UInt32)
  | [], keepRecent, keepTokens => some (0, keepRecent, keepTokens)
  | message :: before, keepRecent, keepTokens =>
    if message.isToolResult ∧ keepRecent = [] then checkedScan before keepRecent keepTokens
    else do
      let sum ← plainAdd keepTokens (estimateTokens serde [message])
      if settings.keepRecentTokens < sum ∧ keepRecent ≠ [] then
        return (before.length + 1, keepRecent, keepTokens)
      else checkedScan before (message :: keepRecent) sum

/-- The totals of `prepare_compaction`; the last one is none where nothing is scanned. -/
structure CompactionTotals where
  estimated : UInt32
  totalContextWindow : UInt32
  keepTokens : Option UInt32

/-- `prepare_compaction` with the totals that it forms: none where an addition overflows. -/
def checkedCompaction (messages : List AgentMessage) :
    Option (Option CompactionTotals × List AgentMessage × List AgentMessage) :=
  if messages = [] then some (none, [], [])
  else do
    let estimated := estimateTokens serde messages
    let totalContextWindow ← plainAdd settings.reserveTokens settings.keepRecentTokens
    if estimated ≤ totalContextWindow then
      return (some ⟨estimated, totalContextWindow, none⟩, [], messages)
    else
      let scanned ← checkedScan serde settings messages.reverse [] 0
      return (some ⟨estimated, totalContextWindow, some scanned.2.2⟩,
        messages.take scanned.1, scanned.2.1)

variable {serde settings} in
theorem scanBack_of_checked {newest keepRecent : List AgentMessage} {keepTokens : UInt32}
    {scanned : Nat × List AgentMessage × UInt32}
    (checked : checkedScan serde settings newest keepRecent keepTokens = some scanned) :
    scanBack serde settings newest keepRecent keepTokens = (scanned.1, scanned.2.1) := by
  induction newest generalizing keepRecent keepTokens with
  | nil =>
    cases checked
    rfl
  | cons message before ih =>
    rw [checkedScan] at checked
    rw [scanBack]
    split at checked <;> rename_i skipped
    · rw [if_pos skipped]
      exact ih checked
    · rw [if_neg skipped]
      obtain ⟨sum, added, checked⟩ := Option.bind_eq_some_iff.mp checked
      cases eq_of_plainAdd added
      split at checked <;> rename_i full
      · cases checked
        exact if_pos full
      · exact (if_neg full).trans (ih checked)

variable {serde settings} in
theorem prepareCompaction_of_checked {messages summarized kept : List AgentMessage}
    {totals : Option CompactionTotals}
    (checked : checkedCompaction serde settings messages = some (totals, summarized, kept)) :
    prepareCompaction serde settings messages = (summarized, kept) := by
  unfold checkedCompaction at checked
  unfold prepareCompaction
  split at checked <;> rename_i empty
  · cases checked
    exact if_pos empty
  · rw [if_neg empty]
    obtain ⟨window, added, checked⟩ := Option.bind_eq_some_iff.mp checked
    cases eq_of_plainAdd added
    split at checked <;> rename_i fits
    · cases checked
      exact if_pos fits
    · obtain ⟨scanned, scan, same⟩ := Option.bind_eq_some_iff.mp checked
      cases same
      rw [if_neg fits, scanBack_of_checked scan]

def countedTokens (message : AgentMessage) : Nat := capped largest (truncatedTokens serde message)

def CompactionExact (messages : List AgentMessage) : Prop :=
  ∃ totals summarized kept,
    checkedCompaction serde settings messages = some (totals, summarized, kept) ∧
      ∀ formed ∈ totals,
        formed.estimated.toNat = capped largest (total (exactTokens serde) messages) ∧
        formed.totalContextWindow.toNat =
          capped largest (settings.reserveTokens.toNat + settings.keepRecentTokens.toNat) ∧
        ∀ keepTokens ∈ formed.keepTokens,
          keepTokens.toNat = capped largest (total (exactTokens serde) kept)

def RecentFits (recent : List AgentMessage) : Prop :=
  ∀ kept before, recent = kept ++ before → kept ≠ [] →
    (kept.length = 1 ∨ total (countedTokens serde) kept ≤ settings.keepRecentTokens.toNat) →
      CountsRight serde kept ∧
        ∀ message rest, before = message :: rest →
          total (countedTokens serde) kept + countedTokens serde message ≤ largest

/-- The settings fit together and the messages count right; and where they pass the settings, so
do the most recent ones. -/
def CompactionFits (messages : List AgentMessage) : Prop :=
  messages = [] ∨
    settings.reserveTokens.toNat + settings.keepRecentTokens.toNat ≤ largest ∧
      CountsRight serde messages ∧
      (settings.reserveTokens.toNat + settings.keepRecentTokens.toNat <
          capped largest (total (truncatedTokens serde) messages) →
        RecentFits serde settings (messages.reverse.dropWhile AgentMessage.isToolResult))

variable {serde settings}

theorem estimate_one (message : AgentMessage) :
    (estimateTokens serde [message]).toNat = countedTokens serde message := by
  rw [estimateTokens_toNat, total_cons, total_nil, Nat.add_zero]
  rfl

variable {messages before kept : List AgentMessage} {message : AgentMessage}
  {scanned : Nat × List AgentMessage × UInt32}

theorem counted_eq (fits : total (countedTokens serde) messages ≤ largest) :
    total (countedTokens serde) messages =
      capped largest (total (truncatedTokens serde) messages) := by
  rw [← capped_total]
  exact (capped_of_le fits).symm

variable (newest : List AgentMessage)

theorem checkedScan_skip (keepTokens : UInt32) :
    checkedScan serde settings newest [] keepTokens =
      checkedScan serde settings (newest.dropWhile AgentMessage.isToolResult) [] keepTokens := by
  induction newest with
  | nil => rfl
  | cons message before ih =>
    cases result : message.isToolResult with
    | true => simp [checkedScan, result, ih]
    | false => simp [result]

theorem checkedScan_started {keepRecent : List AgentMessage} (started : keepRecent ≠ [])
    (keepTokens : UInt32) :
    checkedScan serde settings newest keepRecent keepTokens =
      (gather largest (countedTokens serde) (decide <| · ≤ settings.keepRecentTokens.toNat)
        keepTokens.toNat newest).map fun parts =>
          (parts.2.length, parts.1.reverse ++ keepRecent,
            UInt32.ofNat (keepTokens.toNat + total (countedTokens serde) parts.1)) := by
  induction newest generalizing keepRecent keepTokens with
  | nil => simp [checkedScan, gather]
  | cons message before ih =>
    have one : (estimateTokens serde [message]).toNat = countedTokens serde message :=
      estimate_one message
    rw [checkedScan, if_neg (by simp [started]), plainAdd_eq, one, gather]
    by_cases fits : keepTokens.toNat + countedTokens serde message ≤ largest
    · have sum := toNat_add_of_le (one.symm ▸ fits)
      rw [one] at sum
      rw [if_pos fits, if_neg (Nat.not_lt.mpr fits)]
      simp only [Option.bind_eq_bind, Option.bind_some, started, ne_eq, not_false_eq_true,
        and_true, UInt32.lt_iff_toNat_lt, sum, decide_eq_true_eq]
      by_cases within : keepTokens.toNat + countedTokens serde message ≤
          settings.keepRecentTokens.toNat
      · rw [if_neg (Nat.not_lt.mpr within), if_pos within, ih (cons_ne_nil _ _), sum,
          Option.map_map]
        apply Option.map_congr
        intro parts _
        simp [Nat.add_assoc]
      · rw [if_pos (Nat.lt_of_not_le within), if_neg within]
        simp
    · rw [if_neg fits, if_pos (Nat.lt_of_not_le fits)]
      rfl

theorem checkedScan_recent (message : AgentMessage) (before : List AgentMessage)
    (other : message.isToolResult = false) :
    checkedScan serde settings (message :: before) [] 0 =
      (gather largest (countedTokens serde) (decide <| · ≤ settings.keepRecentTokens.toNat)
        (countedTokens serde message) before).map fun parts =>
          (parts.2.length, parts.1.reverse ++ [message],
            UInt32.ofNat (total (countedTokens serde) (message :: parts.1))) := by
  have one : (estimateTokens serde [message]).toNat = countedTokens serde message :=
    estimate_one message
  have fits : (0 : UInt32).toNat + (estimateTokens serde [message]).toNat ≤ largest := by
    rw [one, UInt32.toNat_zero, Nat.zero_add]
    exact capped_le _ _
  have sum := toNat_add_of_le fits
  rw [one, UInt32.toNat_zero, Nat.zero_add] at sum
  rw [checkedScan, if_neg (by simp [other]), plainAdd_eq, if_pos fits]
  simp only [Option.bind_eq_bind, Option.bind_some, ne_eq, not_true_eq_false, and_false, if_false]
  rw [checkedScan_started before (cons_ne_nil _ _), sum]
  simp [total_cons]

theorem countsRight_front {front back : List AgentMessage}
    (right : CountsRight serde (front ++ back))
    (below : capped largest (total (truncatedTokens serde) (front ++ back)) < largest) :
    CountsRight serde front := by
  rcases right with short | full
  · exact .inl fun message member => short message (mem_append_left back member)
  · rw [capped, Nat.min_eq_right full] at below
    exact absurd below (Nat.lt_irrefl _)

theorem countedTotal_le {message : AgentMessage} {taken : List AgentMessage} {inside : Prop}
    (kept : taken = [] ∨ inside ∧
      countedTokens serde message + total (countedTokens serde) taken ≤ largest) :
    total (countedTokens serde) (message :: taken) ≤ largest := by
  rw [total_cons]
  rcases kept with rfl | ⟨_, fits⟩
  · exact capped_le _ _
  · exact fits

theorem ofNat_toNat {n : Nat} (fits : n ≤ largest) : (UInt32.ofNat n).toNat = n := by
  unfold largest at fits
  rw [UInt32.toNat_ofNat']
  omega

theorem keep_downward (a b : Nat) (below : a ≤ b)
    (inside : decide (b ≤ settings.keepRecentTokens.toNat) = true) :
    decide (a ≤ settings.keepRecentTokens.toNat) = true :=
  decide_eq_true (Nat.le_trans below (of_decide_eq_true inside))

theorem total_kept (cost : AgentMessage → Nat) (taken : List AgentMessage)
    (message : AgentMessage) :
    total cost (taken.reverse ++ [message]) = total cost (message :: taken) := by
  rw [total_append, total_reverse, total_cons, total_cons, total_nil]
  omega

theorem scan_of_recentFits (other : message.isToolResult = false)
    (fits : RecentFits serde settings (message :: before)) :
    ∃ scanned, checkedScan serde settings (message :: before) [] 0 = some scanned ∧
      scanned.2.2.toNat = capped largest (total (exactTokens serde) scanned.2.1) := by
  have gathers : (gather largest (countedTokens serde)
      (decide <| · ≤ settings.keepRecentTokens.toNat) (countedTokens serde message)
      before).isSome := by
    refine (gather_isSome_iff keep_downward).mpr fun front x back split reached => ?_
    have within : (message :: front).length = 1 ∨ total (countedTokens serde) (message :: front) ≤
        settings.keepRecentTokens.toNat := by
      rcases reached with rfl | inside
      · exact .inl rfl
      · exact .inr (by simpa using inside)
    rw [← total_cons]
    exact (fits (message :: front) (x :: back) (by rw [split]; rfl) (cons_ne_nil _ _)
      within).2 x back rfl
  obtain ⟨⟨taken, rest⟩, found⟩ := Option.isSome_iff_exists.mp gathers
  obtain ⟨split, kept, _⟩ := gather_some found
  have below := countedTotal_le kept
  have reached : (message :: taken).length = 1 ∨ total (countedTokens serde) (message :: taken) ≤
      settings.keepRecentTokens.toNat := by
    rcases kept with rfl | ⟨inside, _⟩
    · exact .inl rfl
    · exact .inr (by simpa using inside)
  have right := (fits (message :: taken) rest (by rw [split]; rfl) (cons_ne_nil _ _) reached).1
  rw [checkedScan_recent message before other, found]
  refine ⟨_, rfl, ?_⟩
  rw [ofNat_toNat below, counted_eq below, total_kept]
  exact (countsRight_iff _).mpr right

theorem recentFits_of_scan (other : message.isToolResult = false)
    (room : settings.keepRecentTokens.toNat < largest)
    (run : checkedScan serde settings (message :: before) [] 0 = some scanned)
    (exact : scanned.2.2.toNat = capped largest (total (exactTokens serde) scanned.2.1)) :
    RecentFits serde settings (message :: before) := by
  rw [checkedScan_recent message before other] at run
  obtain ⟨⟨taken, rest⟩, found, rfl⟩ := Option.map_eq_some_iff.mp run
  obtain ⟨_, whole, _⟩ := gather_some found
  have below := countedTotal_le whole
  rw [ofNat_toNat below, counted_eq below, total_kept, countsRight_iff] at exact
  intro kept rear split nonempty within
  obtain ⟨first, front, rfl⟩ := exists_cons_of_ne_nil nonempty
  obtain rfl : message = first := (cons.inj split).1
  have behind : before = front ++ rear := (cons.inj split).2
  have reached : front = [] ∨ decide (countedTokens serde message +
      total (countedTokens serde) front ≤ settings.keepRecentTokens.toNat) = true := by
    rcases within with single | inside
    · exact .inl (by simpa using single)
    · exact .inr (by simpa using inside)
  refine ⟨?_, fun next rest same => ?_⟩
  · obtain ⟨more, rfl⟩ := prefix_of_gather keep_downward found behind reached
    by_cases ended : more = []
    · rwa [ended, append_nil] at exact
    · rcases whole with empty | ⟨inside, _⟩
      · exact absurd (append_eq_nil_iff.mp empty).2 ended
      · refine countsRight_front (cons_append ▸ exact) ?_
        rw [cons_append, ← counted_eq below, total_cons]
        have := of_decide_eq_true inside
        omega
  · rw [total_cons]
    have gathers : (gather largest (countedTokens serde)
        (decide <| · ≤ settings.keepRecentTokens.toNat) (countedTokens serde message)
        before).isSome := by
      rw [found]
      rfl
    exact (gather_isSome_iff keep_downward).mp gathers front next rest (by rw [behind, same])
      reached

theorem recentFits_iff (room : settings.keepRecentTokens.toNat < largest) :
    RecentFits serde settings (newest.dropWhile AgentMessage.isToolResult) ↔
      ∃ scanned, checkedScan serde settings newest [] 0 = some scanned ∧
        scanned.2.2.toNat = capped largest (total (exactTokens serde) scanned.2.1) := by
  rw [checkedScan_skip]
  cases recent : newest.dropWhile AgentMessage.isToolResult with
  | nil =>
    refine iff_of_true (fun kept before split nonempty => ?_) ⟨_, rfl, rfl⟩
    exact absurd (append_eq_nil_iff.mp split.symm).1 nonempty
  | cons message before =>
    have other : message.isToolResult = false := by
      have first := head?_dropWhile_not AgentMessage.isToolResult newest
      rw [recent] at first
      exact first
    refine ⟨scan_of_recentFits other, ?_⟩
    rintro ⟨scanned, run, exact⟩
    exact recentFits_of_scan other room run exact

theorem compactionExact_iff (messages : List AgentMessage) :
    CompactionExact serde settings messages ↔ CompactionFits serde settings messages := by
  unfold CompactionExact CompactionFits checkedCompaction
  by_cases empty : messages = []
  · rw [if_pos empty]
    exact iff_of_true ⟨none, [], [], rfl, by simp⟩ (.inl empty)
  rw [if_neg empty, plainAdd_eq, or_iff_right empty]
  by_cases room : settings.reserveTokens.toNat + settings.keepRecentTokens.toNat ≤ largest
  · have window := toNat_add_of_le room
    have counted : (estimateTokens serde messages).toNat =
        capped largest (total (truncatedTokens serde) messages) := estimateTokens_toNat messages
    have whole := capped_of_le room
    simp only [if_pos room, Option.bind_eq_bind, Option.bind_some, UInt32.le_iff_toNat_le, window,
      counted]
    by_cases within : capped largest (total (truncatedTokens serde) messages) ≤
        settings.reserveTokens.toNat + settings.keepRecentTokens.toNat
    · rw [if_pos within]
      constructor
      · rintro ⟨totals, summarized, kept, run, exact⟩
        cases run
        obtain ⟨estimated, _⟩ := exact _ rfl
        refine ⟨room, (countsRight_iff _).mp (counted ▸ estimated), fun beyond => ?_⟩
        exact absurd within (Nat.not_le.mpr beyond)
      · rintro ⟨_, right, _⟩
        refine ⟨_, _, _, rfl, ?_⟩
        rintro _ ⟨⟩
        exact ⟨counted.trans ((countsRight_iff _).mpr right), window.trans whole.symm, by simp⟩
    · rw [if_neg within]
      have beyond := Nat.lt_of_not_le within
      have small : settings.keepRecentTokens.toNat < largest := by
        have := capped_le largest (total (truncatedTokens serde) messages)
        omega
      constructor
      · rintro ⟨totals, summarized, kept, run, exact⟩
        obtain ⟨scanned, scan, same⟩ := Option.bind_eq_some_iff.mp run
        cases same
        obtain ⟨estimated, _, keep⟩ := exact _ rfl
        refine ⟨room, (countsRight_iff _).mp (counted ▸ estimated), fun _ => ?_⟩
        exact (recentFits_iff _ small).mpr ⟨scanned, scan, keep _ rfl⟩
      · rintro ⟨_, right, recent⟩
        obtain ⟨scanned, scan, exact⟩ := (recentFits_iff _ small).mp (recent beyond)
        rw [scan]
        refine ⟨_, _, _, rfl, ?_⟩
        rintro _ ⟨⟩
        refine ⟨counted.trans ((countsRight_iff _).mpr right), window.trans whole.symm, ?_⟩
        rintro _ ⟨⟩
        exact exact
  · rw [if_neg room]
    exact iff_of_false (by simp) fun fits => room fits.1

end compaction

section branch

variable (serde : Serde) (fromValue : Value → Option StoredAgentMessage) (tokenBudget : UInt32)

/-- The messages of the entries, newest first. -/
def branchMessages (entries : List SessionEntry) : List AgentMessage :=
  entries.reverse.filterMap (messageFromEntry fromValue)

def BranchExact (entries : List SessionEntry) : Prop :=
  ∃ prepared, prepareBranchEntries serde fromValue tokenBudget entries = some prepared ∧
    prepared.totalTokens.toNat = capped largest (total (exactTokens serde) prepared.messages)

/-- A summary passes the budget while less than nine tenths of it are spent. -/
def admitted (spent : Nat) (message : AgentMessage) : Bool :=
  isSummary message && spent < (saturatingMul tokenBudget 9 / 10).toNat

def collected (spent : Nat) (taken rest : List AgentMessage) : List AgentMessage :=
  match rest with
  | [] => taken
  | message :: _ => if admitted tokenBudget spent message then taken ++ [message] else taken

/-- A budget of zero is none. -/
def Within (spent : Nat) : Prop := tokenBudget = 0 ∨ spent ≤ tokenBudget.toNat

instance (spent : Nat) : Decidable (Within tokenBudget spent) :=
  inferInstanceAs (Decidable (tokenBudget = 0 ∨ spent ≤ tokenBudget.toNat))

/-- Every message that is reached fits, and what is collected counts right: the messages in front
of the first one that passes the budget, and that one if it is admitted. -/
def BranchFits (messages : List AgentMessage) : Prop :=
  (∀ front message back, messages = front ++ message :: back →
      Within tokenBudget (total (countedTokens serde) front) →
        total (countedTokens serde) front + countedTokens serde message ≤ largest) ∧
    ∀ taken rest, messages = taken ++ rest →
      Within tokenBudget (total (countedTokens serde) taken) →
        (∀ message more, rest = message :: more →
          ¬ Within tokenBudget (total (countedTokens serde) taken + countedTokens serde message)) →
            CountsRight serde (collected tokenBudget (total (countedTokens serde) taken) taken rest)

variable {serde fromValue tokenBudget}

theorem not_within_iff (sum : UInt32) :
    ¬ Within tokenBudget sum.toNat ↔ 0 < tokenBudget ∧ tokenBudget < sum := by
  rw [Within, not_or, Nat.not_le, UInt32.lt_iff_toNat_lt, UInt32.lt_iff_toNat_lt,
    ← UInt32.toNat_inj, UInt32.toNat_zero]
  omega

theorem collected_cons (spent : Nat) (message : AgentMessage) (taken rest : List AgentMessage) :
    collected tokenBudget spent (message :: taken) rest =
      message :: collected tokenBudget spent taken rest := by
  cases rest with
  | nil => rfl
  | cons next more =>
    simp only [collected]
    split <;> rfl

variable (entries : List SessionEntry)

theorem prepareLoop_eq (messages : List AgentMessage) (totalTokens : UInt32) :
    prepareLoop serde fromValue tokenBudget entries messages totalTokens =
      (gather largest (countedTokens serde) (decide <| Within tokenBudget ·) totalTokens.toNat
        (entries.filterMap (messageFromEntry fromValue))).map fun parts =>
          let found := collected tokenBudget
            (totalTokens.toNat + total (countedTokens serde) parts.1) parts.1 parts.2
          (messages ++ found,
            UInt32.ofNat (totalTokens.toNat + total (countedTokens serde) found)) := by
  induction entries generalizing messages totalTokens with
  | nil => simp [prepareLoop, gather, collected]
  | cons entry entries ih =>
    rw [prepareLoop, filterMap_cons]
    cases messageFromEntry fromValue entry with
    | none => exact ih messages totalTokens
    | some message =>
      have one : (estimateTokens serde [message]).toNat = countedTokens serde message :=
        estimate_one message
      dsimp only
      rw [gather, plainAdd_eq, one]
      by_cases fits : totalTokens.toNat + countedTokens serde message ≤ largest
      · have sum := toNat_add_of_le (one.symm ▸ fits)
        rw [one] at sum
        rw [if_pos fits, if_neg (Nat.not_lt.mpr fits)]
        simp only [Option.bind_eq_bind, Option.bind_some, ← not_within_iff, sum, decide_eq_true_eq]
        by_cases within : Within tokenBudget (totalTokens.toNat + countedTokens serde message)
        · rw [if_neg (not_not.mpr within), if_pos within, ih, sum, Option.map_map]
          apply Option.map_congr
          intro parts _
          simp [collected_cons, Nat.add_assoc]
        · rw [if_pos within, if_neg within]
          have admits : isSummary message = true ∧
              totalTokens < saturatingMul tokenBudget 9 / 10 ↔
                admitted tokenBudget totalTokens.toNat message = true := by
            simp [admitted, UInt32.lt_iff_toNat_lt]
          have whole : estimateTokens serde [message] =
              UInt32.ofNat (countedTokens serde message) := by
            rw [← one, UInt32.ofNat_toNat]
          by_cases shown : admitted tokenBudget totalTokens.toNat message = true
          · simp [collected, shown, admits, whole]
          · simp [collected, shown, admits]
      · rw [if_neg fits, if_pos (Nat.lt_of_not_le fits)]
        rfl

theorem within_downward (a b : Nat) (below : a ≤ b)
    (inside : decide (Within tokenBudget b) = true) : decide (Within tokenBudget a) = true := by
  refine decide_eq_true ?_
  rcases of_decide_eq_true inside with none | fits
  · exact .inl none
  · exact .inr (Nat.le_trans below fits)

theorem within_zero : Within tokenBudget 0 := .inr (Nat.zero_le _)

theorem collected_le {messages taken rest : List AgentMessage}
    (found : gather largest (countedTokens serde) (decide <| Within tokenBudget ·) 0 messages =
      some (taken, rest)) :
    total (countedTokens serde)
        (collected tokenBudget (total (countedTokens serde) taken) taken rest) ≤ largest := by
  obtain ⟨_, kept, stop⟩ := gather_some found
  have whole : total (countedTokens serde) taken ≤ largest := by
    rcases kept with rfl | ⟨_, fits⟩
    · exact Nat.zero_le _
    · simpa using fits
  cases rest with
  | nil => exact whole
  | cons message more =>
    have next := (stop message more rfl).1
    simp only [collected]
    split
    · rw [total_append, total_cons, total_nil]
      omega
    · exact whole

theorem branchExact_iff_gather :
    BranchExact serde fromValue tokenBudget entries ↔
      ∃ taken rest, gather largest (countedTokens serde) (decide <| Within tokenBudget ·) 0
          (branchMessages fromValue entries) = some (taken, rest) ∧
        CountsRight serde
          (collected tokenBudget (total (countedTokens serde) taken) taken rest) := by
  unfold BranchExact prepareBranchEntries branchMessages
  simp only [prepareLoop_eq, UInt32.toNat_zero, Nat.zero_add, nil_append]
  constructor
  · rintro ⟨prepared, run, exact⟩
    obtain ⟨loop, mapped, same⟩ := Option.bind_eq_some_iff.mp run
    obtain ⟨⟨taken, rest⟩, found, rfl⟩ := Option.map_eq_some_iff.mp mapped
    cases same
    have below := collected_le found
    rw [ofNat_toNat below, counted_eq below, total_reverse] at exact
    exact ⟨taken, rest, found, (countsRight_iff _).mp exact⟩
  · rintro ⟨taken, rest, found, right⟩
    have below := collected_le found
    rw [found]
    refine ⟨_, rfl, ?_⟩
    rw [ofNat_toNat below, counted_eq below, total_reverse]
    exact (countsRight_iff _).mpr right

theorem branchExact_iff :
    BranchExact serde fromValue tokenBudget entries ↔
      BranchFits serde tokenBudget (branchMessages fromValue entries) := by
  rw [branchExact_iff_gather]
  constructor
  · rintro ⟨taken, rest, found, right⟩
    obtain ⟨split, kept, _⟩ := gather_some found
    refine ⟨fun front message back parts inside => ?_, fun front back parts inside stops => ?_⟩
    · have gathers : (gather largest (countedTokens serde) (decide <| Within tokenBudget ·) 0
          (branchMessages fromValue entries)).isSome := by
        rw [found]
        rfl
      have here := (gather_isSome_iff within_downward).mp gathers front message back parts
      rw [Nat.zero_add] at here
      exact here (.inr (decide_eq_true inside))
    · have reached : front = [] ∨
          decide (Within tokenBudget (0 + total (countedTokens serde) front)) = true := by
        rw [Nat.zero_add]
        exact .inr (decide_eq_true inside)
      obtain ⟨more, rfl⟩ := prefix_of_gather within_downward found parts reached
      rw [split, append_assoc, append_cancel_left_eq] at parts
      cases more with
      | nil =>
        rw [append_nil] at right
        exact parts ▸ right
      | cons message more =>
        refine absurd ?_ (stops message (more ++ rest) parts.symm)
        rcases kept with empty | ⟨whole, _⟩
        · exact absurd empty (by simp)
        · refine of_decide_eq_true (within_downward _ _ ?_ whole)
          rw [total_append, total_cons]
          omega
  · rintro ⟨fits, right⟩
    have gathers : (gather largest (countedTokens serde) (decide <| Within tokenBudget ·) 0
        (branchMessages fromValue entries)).isSome := by
      refine (gather_isSome_iff within_downward).mpr fun front message back parts reached => ?_
      rw [Nat.zero_add] at reached ⊢
      refine fits front message back parts ?_
      rcases reached with rfl | inside
      · exact within_zero
      · exact of_decide_eq_true inside
    obtain ⟨⟨taken, rest⟩, found⟩ := Option.isSome_iff_exists.mp gathers
    obtain ⟨split, kept, stop⟩ := gather_some found
    simp only [Nat.zero_add] at kept stop
    refine ⟨taken, rest, found, right taken rest split ?_ fun message more same => ?_⟩
    · rcases kept with rfl | ⟨inside, _⟩
      · exact within_zero
      · exact of_decide_eq_true inside
    · exact of_decide_eq_false (stop message more same).2

end branch

/-- When no addition overflows and the totals are exact, for each of the three functions. -/
theorem totals_exact_iff (serde : Serde) (fromValue : Value → Option StoredAgentMessage)
    (messages : List AgentMessage) (settings : CompactionSettings) (entries : List SessionEntry)
    (tokenBudget : UInt32) :
    (ContextExact serde messages ↔ ContextFits serde messages) ∧
      (CompactionExact serde settings messages ↔ CompactionFits serde settings messages) ∧
      (BranchExact serde fromValue tokenBudget entries ↔
        BranchFits serde tokenBudget (branchMessages fromValue entries)) :=
  ⟨contextExact_iff messages, compactionExact_iff messages, branchExact_iff entries⟩

/-- A provider that tells the greatest number of tokens leaves no room for another message. -/
theorem greatest_usage_overflows :
    ¬ ContextExact Serde.silent
      [.assistant "a" { AssistantMessage.empty "api" "model" with
        usage := { totalTokens := 4294967295 } }, .userText "u" "more"] := by
  rintro ⟨estimate, checked, _⟩
  have overflows : checkedContextTokens Serde.silent
      [.assistant "a" { AssistantMessage.empty "api" "model" with
        usage := { totalTokens := 4294967295 } }, .userText "u" "more"] = none := by
    rfl
  rw [overflows] at checked
  cases checked

end PiRust.TokenAccounting
