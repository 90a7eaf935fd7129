import PiRust.Sse

namespace PiRust.Sse

open List

def scan (locals : Locals) (lines : List Bytes) : Locals :=
  lines.foldl (fun state line => processLine state (line ++ [newline])) locals

variable (locals : Locals)

@[simp] theorem scan_nil : scan locals [] = locals := rfl

@[simp] theorem scan_cons (line : Bytes) (rest : List Bytes) :
    scan locals (line :: rest) = scan (processLine locals (line ++ [newline])) rest := by
  simp [scan]

theorem scan_append (first second : List Bytes) :
    scan locals (first ++ second) = scan (scan locals first) second := by
  simp [scan]

theorem processLines_eq (buf : Bytes) :
    processLines locals buf =
      (scan locals (Framing.pieces newline buf).1, (Framing.pieces newline buf).2) := by
  fun_induction processLines locals buf with
  | case1 locals buf absent => rw [Framing.cut_none newline absent, scan_nil]
  | case2 locals buf line rest found ih =>
    obtain ⟨piece, ends, same⟩ := Framing.cut_some newline found
    rw [ih, same, ends, scan_cons]

theorem processChunk_eq (chunk buf : Bytes) :
    processChunk chunk buf =
      ((scan Locals.fresh (Framing.pieces newline (buf ++ chunk)).1).events,
        (Framing.pieces newline (buf ++ chunk)).2) := by
  simp [processChunk, processLines_eq]

theorem iterateFrom_eq (chunks : List Bytes) (buf : Bytes)
    (unfinished : Framing.pieces newline buf = ([], buf)) :
    iterateFrom buf (chunks.map .ok) =
      (((Framing.reads newline buf chunks).1.map fun lines =>
          (scan Locals.fresh lines).events).flatten ++
        flush (Framing.reads newline buf chunks).2).map .ok := by
  induction chunks generalizing buf with
  | nil => simp [iterateFrom, Framing.reads]
  | cons chunk chunks ih =>
    simp [iterateFrom, processChunk_eq, Framing.reads, ih _ (Framing.pieces_remainder newline _)]

def isBlank (line : Bytes) : Bool :=
  trimEndMatches '\r' (fromUtf8Lossy (stripTerminator (line ++ [newline]))) = ""

def dispatch (eventType : Option String) (dataParts : List String) : List ServerSentEvent :=
  if dataParts = [] then [] else [⟨eventType, String.join dataParts⟩]

theorem processLine_blank (line : Bytes) (blank : isBlank line = true) :
    processLine locals (line ++ [newline]) =
      ⟨locals.events ++ dispatch locals.eventType locals.dataParts, none, []⟩ := by
  simp only [isBlank, decide_eq_true_eq] at blank
  simp only [processLine, blank, ↓reduceIte, dispatch]
  by_cases empty : locals.dataParts = []
  · simp [empty]
  · simp [empty]

theorem processLine_field (events : List ServerSentEvent) (lost : Option String)
    (earlier : List String) (own : Locals) (line : Bytes) (field : isBlank line = false) :
    processLine ⟨events, own.eventType.or lost, earlier ++ own.dataParts⟩ (line ++ [newline]) =
      ⟨events, (processLine own (line ++ [newline])).eventType.or lost,
        earlier ++ (processLine own (line ++ [newline])).dataParts⟩ := by
  simp only [isBlank, decide_eq_false_iff_not] at field
  simp only [processLine, field, ↓reduceIte]
  split
  · rfl
  · split
    · simp
    · split <;> simp

theorem processLine_field_events (own : Locals) (line : Bytes) (field : isBlank line = false) :
    (processLine own (line ++ [newline])).events = own.events := by
  simp only [isBlank, decide_eq_false_iff_not] at field
  simp only [processLine, field, ↓reduceIte]
  split
  · rfl
  · split
    · rfl
    · split <;> rfl

theorem scan_events (events : List ServerSentEvent) (eventType : Option String)
    (dataParts : List String) (lines : List Bytes) :
    (scan ⟨events, eventType, dataParts⟩ lines).events =
      events ++ (scan ⟨[], eventType, dataParts⟩ lines).events := by
  induction lines generalizing events eventType dataParts with
  | nil => simp
  | cons line rest ih =>
    rw [scan_cons, scan_cons]
    cases blank : isBlank line with
    | true =>
      rw [processLine_blank _ _ blank, processLine_blank _ _ blank, ih, ih ([] ++ _)]
      simp
    | false =>
      have full := processLine_field events none [] ⟨events, eventType, dataParts⟩ line blank
      have own := processLine_field [] none [] ⟨events, eventType, dataParts⟩ line blank
      simp only [Option.or_none, nil_append] at full own
      rw [full, own, ih]

/-- The fields that the lines up to the next blank line add to `own`; none
when no blank line follows. -/
def closing (own : Locals) : List Bytes → Option Locals
  | [] => none
  | line :: rest =>
    if isBlank line then some own else closing (processLine own (line ++ [newline])) rest

/-- Fields `lost` before a run of lines matter to the events of the run only
through the first blank line in it. -/
theorem scan_closing (lost : Option String) (earlier : List String) (own : Locals)
    (clean : own.events = []) (after : List Bytes) :
    match closing own after with
    | none =>
      (scan ⟨[], own.eventType.or lost, earlier ++ own.dataParts⟩ after).events = [] ∧
        (scan own after).events = []
    | some kept => ∃ tail,
        (scan ⟨[], own.eventType.or lost, earlier ++ own.dataParts⟩ after).events =
            dispatch (kept.eventType.or lost) (earlier ++ kept.dataParts) ++ tail ∧
          (scan own after).events = dispatch kept.eventType kept.dataParts ++ tail := by
  induction after generalizing own with
  | nil => simp [closing, clean]
  | cons line rest ih =>
    cases blank : isBlank line with
    | true =>
      simp only [closing, blank, ↓reduceIte, scan_cons, processLine_blank _ _ blank, clean]
      exact ⟨(scan Locals.fresh rest).events, by rw [scan_events]; rfl,
        by rw [scan_events]; rfl⟩
    | false =>
      simp only [closing, blank, Bool.false_eq_true, ↓reduceIte, scan_cons,
        processLine_field [] lost earlier own line blank]
      exact ih _ ((processLine_field_events own line blank).trans clean)

/-- The locals `lost` that a call drops on its return make no difference to the
lines `after` it: their event block is never closed, or has no data at all, or
gets data later while the dropped fields are empty data and an event name that
is given again or was absent. -/
def Harmless (lost : Locals) (after : List Bytes) : Prop :=
  ∀ kept, closing Locals.fresh after = some kept →
    (lost.dataParts = [] ∧ kept.dataParts = []) ∨
      (kept.dataParts ≠ [] ∧ String.join lost.dataParts = "" ∧
        (lost.eventType = none ∨ kept.eventType ≠ none))

/-- No call drops fields that would still count. The groups are the lines that
each chunk completes. -/
def NothingDropped : List (List Bytes) → Prop
  | [] => True
  | lines :: later =>
    Harmless (scan Locals.fresh lines) later.flatten ∧ NothingDropped later

def weight (events : List ServerSentEvent) : Nat :=
  (events.map fun event => event.data.length + event.event.toList.length + 1).sum

theorem weight_append (first second : List ServerSentEvent) :
    weight (first ++ second) = weight first + weight second := by
  simp [weight]

theorem join_append (first second : List String) :
    String.join (first ++ second) = String.join first ++ String.join second := by
  induction first with
  | nil => simp [String.join_nil]
  | cons part rest ih =>
    rw [cons_append, String.join_cons, String.join_cons, ih, String.append_assoc]

/-- Fields added before a block never lower what its closing line yields, and
leave the weight unchanged only when they are harmless. -/
theorem dispatch_weight (lost kept : Option String) (earlier own : List String) :
    weight (dispatch kept own) ≤ weight (dispatch (kept.or lost) (earlier ++ own)) ∧
      (weight (dispatch kept own) = weight (dispatch (kept.or lost) (earlier ++ own)) →
        (earlier = [] ∧ own = []) ∨
          (own ≠ [] ∧ String.join earlier = "" ∧ (lost = none ∨ kept ≠ none))) := by
  by_cases none_own : own = []
  · by_cases none_earlier : earlier = []
    · simp [none_own, none_earlier, dispatch]
    · simp [none_own, none_earlier, dispatch, weight]
  · have shown : earlier ++ own ≠ [] := by simp [none_own]
    simp only [dispatch, none_own, shown, ↓reduceIte, weight, map_cons, map_nil,
      sum_cons, sum_nil, join_append, String.length_append, ne_eq, not_false_eq_true,
      true_and, and_false, false_or, ← String.length_eq_zero_iff]
    cases kept <;> cases lost <;> simp
    omega

theorem dispatch_harmless (lost kept : Option String) (earlier own : List String)
    (harmless : (earlier = [] ∧ own = []) ∨
      (own ≠ [] ∧ String.join earlier = "" ∧ (lost = none ∨ kept ≠ none))) :
    dispatch (kept.or lost) (earlier ++ own) = dispatch kept own := by
  rcases harmless with ⟨rfl, rfl⟩ | ⟨shown, empty, name⟩
  · rfl
  · have all : earlier ++ own ≠ [] := by simp [shown]
    have same : (kept.or lost) = kept := by
      cases kept <;> simp_all
    simp [dispatch, all, shown, empty, same]

/-- One boundary: the rest of the stream yields no less with the dropped fields
than without them, the same events when they are harmless, and more otherwise. -/
theorem scan_lost (lost : Locals) (after : List Bytes) :
    weight (scan Locals.fresh after).events ≤
        weight (scan ⟨[], lost.eventType, lost.dataParts⟩ after).events ∧
      (weight (scan Locals.fresh after).events =
          weight (scan ⟨[], lost.eventType, lost.dataParts⟩ after).events →
        Harmless lost after) ∧
      (Harmless lost after →
        (scan ⟨[], lost.eventType, lost.dataParts⟩ after).events =
          (scan Locals.fresh after).events) := by
  have split := scan_closing lost.eventType lost.dataParts Locals.fresh rfl after
  simp only [Locals.fresh, Option.none_or, append_nil] at split ⊢
  cases closed : closing Locals.fresh after with
  | none =>
    simp only [Locals.fresh] at closed
    rw [closed] at split
    simp [split.1, split.2, Harmless, Locals.fresh, closed]
  | some kept =>
    simp only [Locals.fresh] at closed
    rw [closed] at split
    obtain ⟨tail, full, own⟩ := split
    have grows := dispatch_weight lost.eventType kept.eventType lost.dataParts kept.dataParts
    rw [full, own, weight_append, weight_append]
    refine ⟨by omega, ?_, ?_⟩
    · intro same other reached
      simp only [Locals.fresh, closed, Option.some.injEq] at reached
      subst reached
      exact grows.2 (by omega)
    · intro harmless
      rw [← dispatch_harmless lost.eventType kept.eventType lost.dataParts kept.dataParts
        (harmless kept (by simp [Locals.fresh, closed]))]

theorem scan_groups (groups : List (List Bytes)) :
    weight (groups.map fun lines => (scan Locals.fresh lines).events).flatten ≤
        weight (scan Locals.fresh groups.flatten).events ∧
      (weight (groups.map fun lines => (scan Locals.fresh lines).events).flatten =
          weight (scan Locals.fresh groups.flatten).events → NothingDropped groups) ∧
      (NothingDropped groups →
        (groups.map fun lines => (scan Locals.fresh lines).events).flatten =
          (scan Locals.fresh groups.flatten).events) := by
  induction groups with
  | nil => simp [NothingDropped, Locals.fresh]
  | cons lines later ih =>
    obtain ⟨below, exact_below, same_below⟩ := ih
    obtain ⟨grows, exact_here, same_here⟩ := scan_lost (scan Locals.fresh lines) later.flatten
    have whole : (scan Locals.fresh (lines :: later).flatten).events =
        (scan Locals.fresh lines).events ++
          (scan ⟨[], (scan Locals.fresh lines).eventType,
            (scan Locals.fresh lines).dataParts⟩ later.flatten).events := by
      rw [flatten_cons, scan_append, ← scan_events]
    simp only [map_cons, flatten_cons, weight_append, NothingDropped, whole] at *
    refine ⟨by omega, ?_, ?_⟩
    · intro same
      exact ⟨exact_here (by omega), exact_below (by omega)⟩
    · rintro ⟨harmless, rest⟩
      rw [same_below rest, same_here harmless]

/-- Chunked decoding agrees with decoding the whole body at once exactly when no
`process_chunk` call drops fields, on its return, that the rest of an event
block still needs. -/
theorem iterateSse_chunks_iff (chunks : List Bytes) :
    iterateSse (chunks.map .ok) = iterateSse [.ok chunks.flatten] ↔
      NothingDropped (Framing.reads newline [] chunks).1 := by
  have whole := Framing.reads_flatten newline chunks [] rfl
  simp only [nil_append, Prod.ext_iff] at whole
  have single := iterateFrom_eq [chunks.flatten] [] rfl
  have chunked := iterateFrom_eq chunks [] rfl
  simp only [map_cons, map_nil, Framing.reads, nil_append, flatten_cons,
    flatten_nil, append_nil] at single
  obtain ⟨_, only, enough⟩ := scan_groups (Framing.reads newline [] chunks).1
  rw [whole.1] at only enough
  rw [iterateSse, iterateSse, chunked, single, whole.2]
  constructor
  · intro same
    have events := append_cancel_right (map_injective_iff.mpr
      (fun _ _ equal => Except.ok.inj equal) same)
    exact only (congrArg weight events)
  · intro nothing
    rw [enough nothing]

/-- An event whose data line and blank line arrive in two chunks is lost. -/
theorem iterateSse_split_event :
    ¬ ∀ chunks : List Bytes, iterateSse (chunks.map .ok) = iterateSse [.ok chunks.flatten] := by
  intro always
  have harmless := ((iterateSse_chunks_iff
    ["data: x\n".toUTF8.data.toList, "\n".toUTF8.data.toList]).mp (always _)).1
  have dropped := harmless Locals.fresh (by decide)
  revert dropped
  decide

variable {text : String}

section

variable (printable : Printable text)
include printable

theorem newline_not_mem : newline ∉ asciiBytes text := by
  intro member
  obtain ⟨c, inside, same⟩ := mem_map.mp member
  have range := printable c inside
  have small : (UInt8.ofNat c.toNat).toNat = c.toNat :=
    UInt8.toNat_ofNat_of_lt' (by simp only [UInt8.size]; omega)
  rw [same] at small
  have : newline.toNat = 10 := rfl
  omega

theorem stripTerminator_ascii :
    stripTerminator (asciiBytes text ++ [newline]) = asciiBytes text := by
  have other : ¬ [0x0D, newline].isSuffixOf (asciiBytes text ++ [newline]) = true := by
    rw [isSuffixOf_iff_suffix]
    intro suffix
    have carriage : (0x0D : UInt8) ∈ asciiBytes text := by
      obtain ⟨front, same⟩ := suffix
      rw [append_cons front 0x0D [newline]] at same
      rw [← append_cancel_right same]
      exact mem_append_right _ (mem_singleton_self _)
    obtain ⟨c, inside, same⟩ := mem_map.mp carriage
    have range := printable c inside
    have small : (UInt8.ofNat c.toNat).toNat = c.toNat :=
      UInt8.toNat_ofNat_of_lt' (by simp only [UInt8.size]; omega)
    rw [same] at small
    have : (0x0D : UInt8).toNat = 13 := rfl
    omega
  have ends : [newline].isSuffixOf (asciiBytes text ++ [newline]) = true :=
    isSuffixOf_iff_suffix.mpr (suffix_append _ _)
  rw [stripTerminator, if_neg other, if_pos ends, dropLast_concat]

theorem trimEndMatches_printable : trimEndMatches '\r' text = text := by
  have kept : text.toList.reverse.dropWhile (· == '\r') = text.toList.reverse := by
    cases reversed : text.toList.reverse with
    | nil => rfl
    | cons c rest =>
      apply dropWhile_cons_of_neg
      intro carriage
      have member : c ∈ text.toList := by
        rw [← mem_reverse, reversed]
        exact mem_cons_self
      have range := printable c member
      rw [beq_iff_eq.mp carriage] at range
      have : '\r'.toNat = 13 := rfl
      omega
  rw [trimEndMatches, kept, reverse_reverse, String.ofList_toList]

theorem printable_dataLine : Printable ("data: " ++ text) := by
  have field : Printable "data: " := printable_ofList rfl
  exact printable_append field printable

end

theorem processLine_dataLine {text : String} (printable : Printable text) :
    processLine Locals.fresh (asciiBytes ("data: " ++ text) ++ [newline]) =
      ⟨[], none, [text]⟩ := by
  have whole := printable_dataLine printable
  have line : ("data: " ++ text).toList = 'd' :: 'a' :: 't' :: 'a' :: ':' :: ' ' :: text.toList := by
    rw [String.toList_append]
    rfl
  have read : trimEndMatches '\r' (fromUtf8Lossy (stripTerminator
      (asciiBytes ("data: " ++ text) ++ [newline]))) = "data: " ++ text := by
    rw [stripTerminator_ascii whole, fromUtf8Lossy_asciiBytes whole, trimEndMatches_printable whole]
  have present : "data: " ++ text ≠ "" := by
    intro empty
    rw [empty] at line
    cases line
  have comment : stripPrefix ":" ("data: " ++ text) = none := by
    simp [stripPrefix, line]
  have event : stripPrefix "event:" ("data: " ++ text) = none := by
    simp [stripPrefix, line]
  have data : stripPrefix "data:" ("data: " ++ text) = some (String.ofList (' ' :: text.toList)) := by
    simp [stripPrefix, line]
  have value : fieldValue (String.ofList (' ' :: text.toList)) = text := by
    simp [fieldValue, stripPrefix]
  simp only [processLine, read, if_neg present, comment, event, data, value, Option.isSome_none,
    Bool.false_eq_true, ↓reduceIte, Locals.fresh, nil_append]

theorem processChunk_dataLine {text : String} (printable : Printable text) :
    processChunk (asciiBytes ("data: " ++ text) ++ [newline, newline]) [] =
      ([⟨none, text⟩], []) := by
  have line : newline ∉ asciiBytes ("data: " ++ text) := newline_not_mem (printable_dataLine printable)
  have blank : isBlank [] = true := by decide
  have pieces : Framing.pieces newline (asciiBytes ("data: " ++ text) ++ [newline, newline]) =
      ([asciiBytes ("data: " ++ text), []], []) := by
    rw [Framing.pieces_piece newline line, Framing.pieces_sep, Framing.pieces_nil]
  have dispatched : processLine ⟨[], none, [text]⟩ [newline] =
      ⟨[] ++ dispatch none [text], none, []⟩ := processLine_blank ⟨[], none, [text]⟩ [] blank
  rw [processChunk_eq, nil_append, pieces]
  simp only [scan_cons, scan_nil, processLine_dataLine printable]
  rw [nil_append, dispatched]
  simp [dispatch]

theorem iterateSse_dataLines {texts : List String} (printable : ∀ text ∈ texts, Printable text) :
    iterateSse (texts.map fun text =>
        .ok (asciiBytes ("data: " ++ text) ++ [newline, newline])) =
      texts.map fun text => .ok ⟨none, text⟩ := by
  unfold iterateSse
  induction texts with
  | nil => rfl
  | cons text rest ih =>
    rw [map_cons, iterateFrom, processChunk_dataLine (printable text mem_cons_self),
      ih fun other member => printable other (mem_cons_of_mem _ member)]
    rfl

theorem iterateSse_dataLine (printable : Printable text) :
    iterateSse [.ok (asciiBytes ("data: " ++ text) ++ [newline, newline])] =
      [.ok ⟨none, text⟩] :=
  @iterateSse_dataLines [text] (forall_mem_singleton.mpr printable)

end PiRust.Sse
