import Mathlib.Tactic.IntervalCases
import PiRust.FileLetters
import PiRust.Fitting

/- UTF-8 texts cut at bytes: a cut may be moved to the next byte that no character has behind
its first. -/
namespace PiRust

open EditTool List

/-- `b & 0xC0 == 0x80`. -/
def isContinuation (byte : UInt8) : Bool := byte &&& 0xC0 == 0x80

theorem isContinuation_iff (byte : UInt8) :
    isContinuation byte = true ↔ 0x80 ≤ byte.toNat ∧ byte.toNat < 0xC0 := by
  have all : ∀ n < 256, isContinuation (UInt8.ofNat n) = true ↔ 0x80 ≤ n ∧ n < 0xC0 := by
    decide +kernel
  have here := all byte.toNat byte.toNat_lt_size
  rw [UInt8.ofNat_toNat] at here
  exact here

/-- The bytes of a code point. -/
inductive Encoding (code : Nat) : Bytes → Prop
  | one {a : UInt8} (range : code < 0x80) (first : a.toNat = code) : Encoding code [a]
  | two {a b : UInt8} (range : 0x80 ≤ code ∧ code < 0x800) (first : a.toNat = 0xC0 + code / 64)
      (last : b.toNat = 0x80 + code % 64) : Encoding code [a, b]
  | three {a b d : UInt8} (range : 0x800 ≤ code ∧ code < 0x10000)
      (plain : code < 0xD800 ∨ 0xDFFF < code) (first : a.toNat = 0xE0 + code / 4096)
      (second : b.toNat = 0x80 + code / 64 % 64) (last : d.toNat = 0x80 + code % 64) :
      Encoding code [a, b, d]
  | four {a b d e : UInt8} (range : 0x10000 ≤ code ∧ code < 0x110000)
      (first : a.toNat = 0xF0 + code / 262144) (second : b.toNat = 0x80 + code / 4096 % 64)
      (third : d.toNat = 0x80 + code / 64 % 64) (last : e.toNat = 0x80 + code % 64) :
      Encoding code [a, b, d, e]

variable {n : Nat} {pending : Option Utf8Pending}

theorem toNat_byte {m : Nat} (same : n = m) (small : m < 256) : (UInt8.ofNat n).toNat = m := by
  rw [same]
  exact UInt8.toNat_ofNat_of_lt' small

theorem encoding (c : Char) : Encoding c.toNat (String.utf8EncodeChar c) := by
  have valid : c.toNat < 0xD800 ∨ 0xDFFF < c.toNat ∧ c.toNat < 0x110000 := c.valid
  have code : c.val.toNat = c.toNat := rfl
  simp only [String.utf8EncodeChar, code]
  split
  · exact .one (by omega) (toNat_byte rfl (by omega))
  · split
    · exact .two (by omega) (toNat_byte (by omega) (by omega)) (toNat_byte (by omega) (by omega))
    · split
      · exact .three (by omega) (by omega) (toNat_byte (by omega) (by omega))
          (toNat_byte (by omega) (by omega)) (toNat_byte (by omega) (by omega))
      · exact .four (by omega) (toNat_byte (by omega) (by omega))
          (toNat_byte (by omega) (by omega)) (toNat_byte (by omega) (by omega))
          (toNat_byte (by omega) (by omega))

theorem encode_cases (c : Char) :
    ∃ first rest, String.utf8EncodeChar c = first :: rest ∧ isContinuation first = false ∧
      ∀ byte ∈ rest, isContinuation byte = true := by
  have whole := encoding c
  generalize String.utf8EncodeChar c = bytes at whole
  simp only [← Bool.not_eq_true, isContinuation_iff]
  cases whole with
  | one range first => exact ⟨_, _, rfl, by omega, by simp⟩
  | two range first last => exact ⟨_, _, rfl, by omega, by simp; omega⟩
  | three range plain first second last => exact ⟨_, _, rfl, by omega, by simp; omega⟩
  | four range first second third last => exact ⟨_, _, rfl, by omega, by simp; omega⟩

theorem begin_three (small : n < 16) :
    ∃ low high, utf8Begin (0xE0 + n) = ([], some ⟨n, 2, low, high⟩) ∧
      (low = 0x80 ∨ n = 0 ∧ low = 0xA0) ∧ (high = 0xBF ∨ n = 13 ∧ high = 0x9F) := by
  interval_cases n <;> exact ⟨_, _, rfl, by simp, by simp⟩

theorem begin_four (small : n < 5) :
    ∃ low high, utf8Begin (0xF0 + n) = ([], some ⟨n, 3, low, high⟩) ∧
      (low = 0x80 ∨ n = 0 ∧ low = 0x90) ∧ (high = 0xBF ∨ n = 4 ∧ high = 0x8F) := by
  interval_cases n <;> exact ⟨_, _, rfl, by simp, by simp⟩

theorem utf8Decode_encode (c : Char) (bytes : Bytes) :
    utf8Decode none (String.utf8EncodeChar c ++ bytes) = c :: utf8Decode none bytes := by
  have whole := encoding c
  generalize String.utf8EncodeChar c = encoded at whole
  cases whole with
  | @one a range first =>
    have begun : utf8Begin a.toNat = ([c], none) := by
      rw [utf8Begin, first, if_pos range, Char.ofNat_toNat]
    simp [utf8Decode, utf8Step, begun]
  | @two a b range first last =>
    have begun : utf8Begin a.toNat = ([], some ⟨c.toNat / 64, 1, 0x80, 0xBF⟩) := by
      rw [utf8Begin, if_neg (by omega), if_pos (by omega), show a.toNat - 0xC0 = c.toNat / 64 by omega]
    have value : c.toNat / 64 * 64 + (b.toNat - 0x80) = c.toNat := by omega
    have inside : 0x80 ≤ b.toNat ∧ b.toNat ≤ 0xBF := by omega
    simp [utf8Decode, utf8Step, begun, inside, value]
  | @three a b d range plain first second last =>
    obtain ⟨low, high, begun, least, most⟩ := begin_three (show c.toNat / 4096 < 16 by omega)
    rw [← first] at begun
    have inside : low ≤ b.toNat ∧ b.toNat ≤ high := by omega
    have inner : 0x80 ≤ d.toNat ∧ d.toNat ≤ 0xBF := by omega
    have value : (c.toNat / 4096 * 64 + (b.toNat - 0x80)) * 64 + (d.toNat - 0x80) = c.toNat := by
      omega
    simp [utf8Decode, utf8Step, begun, inside, inner, OfNat.ofNat_ne_one, value]
  | @four a b d e range first second third last =>
    obtain ⟨low, high, begun, least, most⟩ := begin_four (show c.toNat / 262144 < 5 by omega)
    rw [← first] at begun
    have inside : low ≤ b.toNat ∧ b.toNat ≤ high := by omega
    have inner : 0x80 ≤ d.toNat ∧ d.toNat ≤ 0xBF := by omega
    have final : 0x80 ≤ e.toNat ∧ e.toNat ≤ 0xBF := by omega
    have value : ((c.toNat / 262144 * 64 + (b.toNat - 0x80)) * 64 + (d.toNat - 0x80)) * 64 +
        (e.toNat - 0x80) = c.toNat := by
      omega
    simp [utf8Decode, utf8Step, begun, inside, inner, final, OfNat.ofNat_ne_one, value]

theorem utf8Decode_asBytes (text : Str) : utf8Decode none text.asBytes = text := by
  induction text with
  | nil => rfl
  | cons c text ih => rw [Str.asBytes, flatMap_cons, utf8Decode_encode, ← Str.asBytes, ih]

theorem fromUtf8Lossy_asBytes (text : Str) : (fromUtf8Lossy text.asBytes).toList = text := by
  rw [fromUtf8Lossy, String.toList_ofList, utf8Decode_asBytes]

@[simp] theorem asBytes_length (text : Str) : text.asBytes.length = Str.len text := by
  induction text with
  | nil => rfl
  | cons c text ih =>
    rw [Str.asBytes, flatMap_cons, length_append, String.length_utf8EncodeChar, ← Str.asBytes, ih]
    rfl

theorem dropWhile_asBytes (text : Str) : text.asBytes.dropWhile isContinuation = text.asBytes := by
  cases text with
  | nil => rfl
  | cons c text =>
    obtain ⟨first, rest, encoded, starts, _⟩ := encode_cases c
    rw [Str.asBytes, flatMap_cons, encoded, cons_append, dropWhile_cons_of_neg (by simp [starts])]

theorem asBytes_lastFit {text : Str} {limit : Nat} (beyond : limit < Str.len text) :
    (text.asBytes.drop (Str.len text - limit)).dropWhile isContinuation =
      Str.asBytes (Fitting.lastFit Char.utf8Size limit text) := by
  induction text with
  | nil => exact absurd beyond (Nat.not_lt_zero _)
  | cons c text ih =>
    obtain ⟨first, rest, encoded, starts, continues⟩ := encode_cases c
    have size : rest.length + 1 = c.utf8Size := by
      rw [← String.length_utf8EncodeChar, encoded, length_cons]
    have whole : Str.len (c :: text) = c.utf8Size + Str.len text := rfl
    have cut : ¬ Splice.width Char.utf8Size (c :: text) ≤ limit := Nat.not_le.mpr beyond
    rw [Fitting.lastFit, if_neg cut, Str.asBytes, flatMap_cons, encoded, ← Str.asBytes, drop_append]
    by_cases fits : Str.len text ≤ limit
    · -- The cut lies behind the first byte of this character.
      obtain ⟨d, count⟩ : ∃ d, Str.len (c :: text) - limit = d + 1 :=
        ⟨Str.len (c :: text) - limit - 1, by omega⟩
      have inner : Str.len (c :: text) - limit - (first :: rest).length = 0 := by
        rw [length_cons, size]
        omega
      rw [inner, count, drop_succ_cons, drop_zero, Fitting.lastFit_all fits,
        dropWhile_append_of_pos, dropWhile_asBytes]
      exact fun byte member => continues byte (mem_of_mem_drop member)
    · have none_left : (first :: rest).drop (Str.len (c :: text) - limit) = [] := by
        rw [drop_eq_nil_iff, length_cons, size]
        omega
      have inner : Str.len (c :: text) - limit - (first :: rest).length = Str.len text - limit := by
        rw [length_cons, size]
        omega
      rw [none_left, inner, nil_append, ih (Nat.lt_of_not_le fits)]

/-- The range of the byte that is owed. -/
structure Utf8Pending.Bounded (sequence : Utf8Pending) : Prop where
  low : 0x80 ≤ sequence.low
  high : sequence.high ≤ 0xBF
  owing : 1 ≤ sequence.owed
  owed : sequence.owed ≤ 3

theorem utf8Begin_bounded (byte : UInt8) :
    ∀ sequence ∈ (utf8Begin byte.toNat).2, sequence.Bounded := by
  intro sequence begun
  rcases begin_cases byte with ⟨_, same⟩ | ⟨other, same, holds⟩ | ⟨_, same⟩
  · rw [same] at begun
    cases begun
  · rw [same] at begun
    cases begun
    cases holds with
    | two => exact ⟨Nat.le_refl _, Nat.le_refl _, Nat.le_refl 1, Nat.le_add_left 1 2⟩
    | three _ bounds => exact ⟨bounds.1, bounds.2, Nat.le_add_left 1 1, Nat.le_add_left 2 1⟩
    | four _ bounds => exact ⟨bounds.1, bounds.2, Nat.le_add_left 1 2, Nat.le_refl 3⟩
  · rw [same] at begun
    cases begun

theorem utf8Step_bounded (bounded : ∀ sequence ∈ pending, sequence.Bounded) (byte : UInt8) :
    ∀ sequence ∈ (utf8Step pending byte.toNat).2, sequence.Bounded := by
  cases pending with
  | none => exact utf8Begin_bounded byte
  | some sequence =>
    obtain ⟨_, _, owing, owed⟩ := bounded sequence rfl
    rw [utf8Step]
    split
    · split
      · exact fun _ begun => by cases begun
      · next more =>
        intro other same
        rw [← Option.some.inj same]
        exact ⟨Nat.le_refl _, Nat.le_refl _, by dsimp only; omega, by dsimp only; omega⟩
    · exact utf8Begin_bounded byte

def utf8Run : Option Utf8Pending → Bytes → List Char × Option Utf8Pending
  | pending, [] => ([], pending)
  | pending, byte :: rest =>
    ((utf8Step pending byte.toNat).1 ++ (utf8Run (utf8Step pending byte.toNat).2 rest).1,
      (utf8Run (utf8Step pending byte.toNat).2 rest).2)

theorem utf8Decode_cons (pending : Option Utf8Pending) (byte : UInt8) (rest : Bytes) :
    utf8Decode pending (byte :: rest) =
      (utf8Step pending byte.toNat).1 ++ utf8Decode (utf8Step pending byte.toNat).2 rest := by
  cases pending <;> rfl

theorem utf8Decode_append (pending : Option Utf8Pending) (front back : Bytes) :
    utf8Decode pending (front ++ back) =
      (utf8Run pending front).1 ++ utf8Decode (utf8Run pending front).2 back := by
  induction front generalizing pending with
  | nil => rfl
  | cons byte front ih =>
    rw [cons_append, utf8Decode_cons, ih, utf8Run, append_assoc]

theorem utf8Run_append (pending : Option Utf8Pending) (front back : Bytes) :
    utf8Run pending (front ++ back) =
      ((utf8Run pending front).1 ++ (utf8Run (utf8Run pending front).2 back).1,
        (utf8Run (utf8Run pending front).2 back).2) := by
  induction front generalizing pending with
  | nil => rfl
  | cons byte front ih => simp [utf8Run, ih]

theorem utf8Run_bounded (bounded : ∀ sequence ∈ pending, sequence.Bounded) (bytes : Bytes) :
    ∀ sequence ∈ (utf8Run pending bytes).2, sequence.Bounded := by
  induction bytes generalizing pending with
  | nil => exact bounded
  | cons byte bytes ih => exact ih (utf8Step_bounded bounded byte)

theorem utf8Decode_starts (front : Bytes) {byte : UInt8} (starts : isContinuation byte = false)
    (back : Bytes) :
    utf8Decode none (front ++ byte :: back) =
      utf8Decode none front ++ utf8Decode none (byte :: back) := by
  have bounded : ∀ sequence ∈ (utf8Run none front).2, sequence.Bounded :=
    utf8Run_bounded (fun _ absent => absurd absent (Option.not_mem_none _)) front
  have whole := utf8Decode_append none front []
  rw [append_nil] at whole
  rw [utf8Decode_append, whole]
  cases state : (utf8Run none front).2 with
  | none => rw [utf8Decode, append_nil]
  | some sequence =>
    obtain ⟨low, high, _, _⟩ := bounded sequence state
    rw [← Bool.not_eq_true, isContinuation_iff] at starts
    have outside : ¬ (sequence.low ≤ byte.toNat ∧ byte.toNat ≤ sequence.high) := by omega
    have step : utf8Step (some sequence) byte.toNat =
        (replacementChar :: (utf8Begin byte.toNat).1, (utf8Begin byte.toNat).2) := by
      rw [utf8Step, if_neg outside]
    rw [utf8Decode_cons, step, utf8Decode_cons, append_assoc]
    rfl

theorem utf8Begin_continuation {byte : UInt8} (continues : isContinuation byte = true) :
    utf8Begin byte.toNat = ([replacementChar], none) := by
  rw [isContinuation_iff] at continues
  rcases begin_cases byte with ⟨ascii, _⟩ | ⟨sequence, _, holds⟩ | ⟨_, same⟩
  · omega
  · cases holds with
    | two lead => omega
    | three lead => omega
    | four lead => omega
  · exact same

theorem utf8Run_continuations (bounded : ∀ sequence ∈ pending, sequence.Bounded) {bytes : Bytes}
    (continues : ∀ byte ∈ bytes, isContinuation byte = true)
    (long : (pending.elim 0 Utf8Pending.owed) < bytes.length) :
    ∃ front, utf8Run pending bytes = (front ++ [replacementChar], none) := by
  induction bytes generalizing pending with
  | nil => exact absurd long (Nat.not_lt_zero _)
  | cons byte bytes ih =>
    obtain ⟨here, later⟩ := forall_mem_cons.mp continues
    rw [utf8Run]
    by_cases last : bytes = []
    · subst last
      cases pending with
      | none =>
        rw [utf8Step, utf8Begin_continuation here]
        exact ⟨[], rfl⟩
      | some sequence =>
        have owing := (bounded sequence rfl).owing
        simp only [Option.elim_some, length_singleton] at long
        omega
    · have shorter : ((utf8Step pending byte.toNat).2.elim 0 Utf8Pending.owed) < bytes.length := by
        have some : 0 < bytes.length := length_pos_iff.mpr last
        cases pending with
        | none =>
          rw [utf8Step, utf8Begin_continuation here]
          exact some
        | some sequence =>
          have owing := (bounded sequence rfl).owing
          simp only [Option.elim_some, length_cons] at long
          rw [utf8Step, utf8Begin_continuation here]
          split
          · split
            · exact some
            · simp only [Option.elim_some]
              omega
          · exact some
      obtain ⟨front, rest⟩ := ih (utf8Step_bounded bounded byte) later shorter
      rw [rest]
      exact ⟨(utf8Step pending byte.toNat).1 ++ front, by rw [append_assoc]⟩

theorem utf8Decode_run (front : Bytes) {run : Bytes}
    (continues : ∀ byte ∈ run, isContinuation byte = true) (long : 3 < run.length) (back : Bytes) :
    ∃ text, utf8Decode none (front ++ run) = text ++ [replacementChar] ∧
      utf8Decode none (front ++ run ++ back) =
        text ++ [replacementChar] ++ utf8Decode none back := by
  have bounded : ∀ sequence ∈ (utf8Run none front).2, sequence.Bounded :=
    utf8Run_bounded (fun _ absent => absurd absent (Option.not_mem_none _)) front
  have owed : ((utf8Run none front).2.elim 0 Utf8Pending.owed) < run.length := by
    cases state : (utf8Run none front).2 with
    | none => exact Nat.lt_of_le_of_lt (Nat.zero_le 3) long
    | some sequence => exact Nat.lt_of_le_of_lt (bounded sequence state).owed long
  obtain ⟨text, ran⟩ := utf8Run_continuations bounded continues owed
  have whole : ∀ more, utf8Decode none (front ++ run ++ more) =
      (utf8Run none front).1 ++ text ++ [replacementChar] ++ utf8Decode none more := by
    intro more
    rw [utf8Decode_append, utf8Run_append, ran, ← append_assoc]
  have all := whole []
  rw [append_nil, utf8Decode, append_nil] at all
  exact ⟨_, all, whole back⟩

theorem utf8Decode_continuations {bytes : Bytes}
    (continues : ∀ byte ∈ bytes, isContinuation byte = true) (back : Bytes) :
    utf8Decode none (bytes ++ back) =
      replicate bytes.length replacementChar ++ utf8Decode none back := by
  induction bytes with
  | nil => rfl
  | cons byte bytes ih =>
    obtain ⟨here, later⟩ := forall_mem_cons.mp continues
    rw [cons_append, utf8Decode_cons, utf8Step, utf8Begin_continuation here, ih later]
    rfl

theorem length_le_decoded (bytes : Bytes) : bytes.length ≤ Str.len (utf8Decode none bytes) := by
  have letters := read_file bytes
  have whole := readLetters_bytes none [] bytes
  rw [← readLetters_char none [] bytes]
  have sums : ∀ units : List Letter, (∀ u ∈ units, u.Read) →
      (units.flatMap Letter.bytes).length ≤ Str.len (units.map Letter.char) := by
    intro units read
    induction units with
    | nil => exact Nat.zero_le _
    | cons u units ih =>
      have rest := ih fun v member => read v (mem_cons_of_mem _ member)
      have here : u.bytes.length ≤ u.char.utf8Size := by
        rcases read u mem_cons_self with encoded | ⟨replaced, broken⟩
        · rw [encoded, String.length_utf8EncodeChar]
        · rw [replaced]
          exact broken.short
      rw [flatMap_cons, length_append, map_cons]
      exact Nat.add_le_add here rest
  have bound := sums _ letters
  rw [whole] at bound
  simpa using bound

end PiRust
