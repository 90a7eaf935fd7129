import PiRust.EditTool

/- A file as the edit tool sees it: the characters of the normalized content, each with the
bytes that it was read from. -/
namespace PiRust.EditTool

open List

structure Letter where
  bytes : Bytes
  char : Char

def beginLetters (byte : UInt8) : List Letter :=
  (utf8Begin byte.toNat).1.map fun c => ⟨[byte], c⟩

/-- `utf8Decode`, with the bytes of every character; `held` are those of the unfinished one. -/
def readLetters : Option Utf8Pending → Bytes → Bytes → List Letter
  | none, _, [] => []
  | some _, held, [] => [⟨held, replacementChar⟩]
  | none, _, byte :: rest =>
    beginLetters byte ++ readLetters (utf8Begin byte.toNat).2 [byte] rest
  | some sequence, held, byte :: rest =>
    if sequence.low ≤ byte.toNat ∧ byte.toNat ≤ sequence.high then
      let value := sequence.value * 64 + (byte.toNat - 0x80)
      if sequence.owed = 1 then ⟨held ++ [byte], Char.ofNat value⟩ :: readLetters none [] rest
      else readLetters (some ⟨value, sequence.owed - 1, 0x80, 0xBF⟩) (held ++ [byte]) rest
    else
      ⟨held, replacementChar⟩ ::
        (beginLetters byte ++ readLetters (utf8Begin byte.toNat).2 [byte] rest)

theorem readLetters_char (pending : Option Utf8Pending) (held bytes : Bytes) :
    (readLetters pending held bytes).map Letter.char = utf8Decode pending bytes := by
  have begun (byte : UInt8) : (beginLetters byte).map Letter.char = (utf8Begin byte.toNat).1 := by
    rw [beginLetters, map_map]
    exact map_id _
  induction bytes generalizing pending held with
  | nil => cases pending <;> rfl
  | cons byte rest ih =>
    cases pending with
    | none =>
      rw [readLetters, map_append, begun, ih]
      rfl
    | some sequence =>
      rw [readLetters, utf8Decode, utf8Step]
      dsimp only
      split
      · split
        · rw [map_cons, ih, singleton_append]
        · rw [ih, nil_append]
      · rw [map_cons, map_append, begun, ih]
        rfl

/-- A pending sequence and the bytes behind it. -/
inductive Holds : Utf8Pending → Bytes → Prop
  | two {b : UInt8} (lead : 0xC2 ≤ b.toNat ∧ b.toNat ≤ 0xDF) :
      Holds ⟨b.toNat - 0xC0, 1, 0x80, 0xBF⟩ [b]
  | three {b : UInt8} {low high : Nat} (lead : 0xE0 ≤ b.toNat ∧ b.toNat ≤ 0xEF)
      (bounds : 0x80 ≤ low ∧ high ≤ 0xBF) (long : b.toNat = 0xE0 → 0xA0 ≤ low)
      (surrogate : b.toNat = 0xED → high ≤ 0x9F) :
      Holds ⟨b.toNat - 0xE0, 2, low, high⟩ [b]
  | threeNext {b x : UInt8} (lead : 0xE0 ≤ b.toNat ∧ b.toNat ≤ 0xEF)
      (next : 0x80 ≤ x.toNat ∧ x.toNat ≤ 0xBF) (long : b.toNat = 0xE0 → 0xA0 ≤ x.toNat)
      (surrogate : b.toNat = 0xED → x.toNat ≤ 0x9F) :
      Holds ⟨(b.toNat - 0xE0) * 64 + (x.toNat - 0x80), 1, 0x80, 0xBF⟩ [b, x]
  | four {b : UInt8} {low high : Nat} (lead : 0xF0 ≤ b.toNat ∧ b.toNat ≤ 0xF4)
      (bounds : 0x80 ≤ low ∧ high ≤ 0xBF) (long : b.toNat = 0xF0 → 0x90 ≤ low)
      (beyond : b.toNat = 0xF4 → high ≤ 0x8F) :
      Holds ⟨b.toNat - 0xF0, 3, low, high⟩ [b]
  | fourNext {b x : UInt8} (lead : 0xF0 ≤ b.toNat ∧ b.toNat ≤ 0xF4)
      (next : 0x80 ≤ x.toNat ∧ x.toNat ≤ 0xBF) (long : b.toNat = 0xF0 → 0x90 ≤ x.toNat)
      (beyond : b.toNat = 0xF4 → x.toNat ≤ 0x8F) :
      Holds ⟨(b.toNat - 0xF0) * 64 + (x.toNat - 0x80), 2, 0x80, 0xBF⟩ [b, x]
  | fourLast {b x y : UInt8} (lead : 0xF0 ≤ b.toNat ∧ b.toNat ≤ 0xF4)
      (next : 0x80 ≤ x.toNat ∧ x.toNat ≤ 0xBF) (long : b.toNat = 0xF0 → 0x90 ≤ x.toNat)
      (beyond : b.toNat = 0xF4 → x.toNat ≤ 0x8F) (last : 0x80 ≤ y.toNat ∧ y.toNat ≤ 0xBF) :
      Holds ⟨((b.toNat - 0xF0) * 64 + (x.toNat - 0x80)) * 64 + (y.toNat - 0x80), 1, 0x80, 0xBF⟩
        [b, x, y]

/-- Bytes that become one replacement character. -/
structure Broken (bytes : Bytes) : Prop where
  nonempty : bytes ≠ []
  short : bytes.length ≤ 3
  high : ∀ b ∈ bytes, 0x80 ≤ b.toNat
  lead : bytes.length = 3 → bytes.head? ≠ some 0xEF

variable {held : Bytes} {u : Letter} {byte : UInt8} {sequence : Utf8Pending}

theorem Holds.broken (holds : Holds sequence held) : Broken held := by
  cases holds with
  | two lead | three lead => exact ⟨by simp, by simp, by simp; omega, by simp⟩
  | threeNext lead next => exact ⟨by simp, by simp, by simp; omega, by simp⟩
  | four lead => exact ⟨by simp, by simp, by simp; omega, by simp⟩
  | fourNext lead next => exact ⟨by simp, by simp, by simp; omega, by simp⟩
  | fourLast lead next _ _ last =>
    refine ⟨by simp, by simp, by simp; omega, fun _ same => ?_⟩
    cases same
    have := lead.1
    revert this
    decide

theorem begin_cases (byte : UInt8) :
    (byte.toNat < 0x80 ∧ utf8Begin byte.toNat = ([Char.ofNat byte.toNat], none)) ∨
      (∃ sequence, utf8Begin byte.toNat = ([], some sequence) ∧ Holds sequence [byte]) ∨
      (0x80 ≤ byte.toNat ∧ utf8Begin byte.toNat = ([replacementChar], none)) := by
  generalize begun : utf8Begin byte.toNat = result
  unfold utf8Begin at begun
  split at begun
  · next ascii => exact .inl ⟨ascii, begun.symm⟩
  · next high =>
    refine .inr ?_
    split at begun
    · next lead => exact .inl ⟨_, begun.symm, .two lead⟩
    split at begun
    · next lead =>
      refine .inl ⟨_, begun.symm, ?_⟩
      have holds : Holds ⟨byte.toNat - 0xE0, 2, 0xA0, 0xBF⟩ [byte] :=
        .three (by omega) (by omega) (fun _ => by omega) (fun other => by omega)
      rwa [lead] at holds
    split at begun
    · next lead =>
      refine .inl ⟨_, begun.symm, ?_⟩
      have holds : Holds ⟨byte.toNat - 0xE0, 2, 0x80, 0x9F⟩ [byte] :=
        .three (by omega) (by omega) (fun other => by omega) (fun _ => by omega)
      rwa [lead] at holds
    split at begun
    · next lead =>
      exact .inl ⟨_, begun.symm, .three (by omega) (by omega) (fun other => by omega)
        (fun other => by omega)⟩
    split at begun
    · next lead =>
      refine .inl ⟨_, begun.symm, ?_⟩
      have holds : Holds ⟨byte.toNat - 0xF0, 3, 0x90, 0xBF⟩ [byte] :=
        .four (by omega) (by omega) (fun _ => by omega) (fun other => by omega)
      rwa [lead] at holds
    split at begun
    · next lead =>
      exact .inl ⟨_, begun.symm, .four (by omega) (by omega) (fun other => by omega)
        (fun other => by omega)⟩
    split at begun
    · next lead =>
      refine .inl ⟨_, begun.symm, ?_⟩
      have holds : Holds ⟨byte.toNat - 0xF0, 3, 0x80, 0x8F⟩ [byte] :=
        .four (by omega) (by omega) (fun other => by omega) (fun _ => by omega)
      rwa [lead] at holds
    · exact .inr ⟨by omega, begun.symm⟩

theorem Holds.next (holds : Holds sequence held)
    (inside : sequence.low ≤ byte.toNat ∧ byte.toNat ≤ sequence.high) (more : sequence.owed ≠ 1) :
    Holds ⟨sequence.value * 64 + (byte.toNat - 0x80), sequence.owed - 1, 0x80, 0xBF⟩
      (held ++ [byte]) := by
  cases holds with
  | two => exact absurd rfl more
  | three lead bounds long surrogate =>
    dsimp only at inside
    exact .threeNext lead (by omega) (fun same => by have := long same; omega)
      (fun same => by have := surrogate same; omega)
  | threeNext => exact absurd rfl more
  | four lead bounds long beyond =>
    dsimp only at inside
    exact .fourNext lead (by omega) (fun same => by have := long same; omega)
      (fun same => by have := beyond same; omega)
  | fourNext lead next long beyond => exact .fourLast lead next long beyond inside
  | fourLast => exact absurd rfl more

theorem ofNat_eq {n : Nat} {b : UInt8} (same : n = b.toNat) : UInt8.ofNat n = b := by
  rw [same, UInt8.ofNat_toNat]

theorem val_ofNat {n : Nat} (valid : n.isValidChar) : (Char.ofNat n).val.toNat = n := by
  rw [Char.ofNat, dif_pos valid]
  rfl

theorem encode_ascii (ascii : byte.toNat < 0x80) :
    String.utf8EncodeChar (Char.ofNat byte.toNat) = [byte] := by
  have value := val_ofNat (n := byte.toNat) (.inl (by omega))
  simp only [String.utf8EncodeChar, value]
  rw [if_pos (by omega), ofNat_eq rfl]

theorem Holds.done (holds : Holds sequence held)
    (inside : sequence.low ≤ byte.toNat ∧ byte.toNat ≤ sequence.high) (last : sequence.owed = 1) :
    String.utf8EncodeChar (Char.ofNat (sequence.value * 64 + (byte.toNat - 0x80))) =
      held ++ [byte] := by
  cases holds with
  | @two b lead =>
    dsimp only at inside
    have value := val_ofNat (n := (b.toNat - 0xC0) * 64 + (byte.toNat - 0x80)) (.inl (by omega))
    simp only [String.utf8EncodeChar, value]
    rw [if_neg (by omega), if_pos (by omega), ofNat_eq (b := b) (by omega),
      ofNat_eq (b := byte) (by omega)]
    rfl
  | three => cases last
  | @threeNext b x lead next long surrogate =>
    dsimp only at inside
    have valid : ((b.toNat - 0xE0) * 64 + (x.toNat - 0x80)) * 64 + (byte.toNat - 0x80) < 0xD800 ∨
        0xDFFF < ((b.toNat - 0xE0) * 64 + (x.toNat - 0x80)) * 64 + (byte.toNat - 0x80) ∧
        ((b.toNat - 0xE0) * 64 + (x.toNat - 0x80)) * 64 + (byte.toNat - 0x80) < 0x110000 := by
      omega
    have value := val_ofNat valid
    simp only [String.utf8EncodeChar, value]
    rw [if_neg (by omega), if_neg (by omega), if_pos (by omega), ofNat_eq (b := b) (by omega),
      ofNat_eq (b := x) (by omega), ofNat_eq (b := byte) (by omega)]
    rfl
  | four => cases last
  | fourNext => cases last
  | @fourLast b x y lead next long beyond third =>
    dsimp only at inside
    have value := val_ofNat (n := (((b.toNat - 0xF0) * 64 + (x.toNat - 0x80)) * 64 +
      (y.toNat - 0x80)) * 64 + (byte.toNat - 0x80)) (.inr (by omega))
    simp only [String.utf8EncodeChar, value]
    rw [if_neg (by omega), if_neg (by omega), if_neg (by omega), ofNat_eq (b := b) (by omega),
      ofNat_eq (b := x) (by omega), ofNat_eq (b := y) (by omega),
      ofNat_eq (b := byte) (by omega)]
    rfl

def Letter.Read (u : Letter) : Prop :=
  u.bytes = String.utf8EncodeChar u.char ∨ u.char = replacementChar ∧ Broken u.bytes

theorem beginLetters_read (byte : UInt8) (member : u ∈ beginLetters byte) : u.Read := by
  rw [beginLetters] at member
  rcases begin_cases byte with ⟨ascii, begun⟩ | ⟨sequence, begun, _⟩ | ⟨high, begun⟩
  · rw [begun, map_singleton, mem_singleton] at member
    rw [member]
    exact .inl (encode_ascii ascii).symm
  · rw [begun] at member
    cases member
  · rw [begun, map_singleton, mem_singleton] at member
    rw [member]
    exact .inr ⟨rfl, by simp, by simp, by simpa using high, by simp⟩

theorem begin_holds (begun : (utf8Begin byte.toNat).2 = some sequence) : Holds sequence [byte] := by
  rcases begin_cases byte with ⟨_, same⟩ | ⟨other, same, holds⟩ | ⟨_, same⟩
  · rw [same] at begun
    cases begun
  · rw [same] at begun
    cases begun
    exact holds
  · rw [same] at begun
    cases begun

theorem readLetters_read {pending : Option Utf8Pending} (bytes : Bytes)
    (holds : ∀ sequence, pending = some sequence → Holds sequence held) :
    ∀ u ∈ readLetters pending held bytes, u.Read := by
  induction bytes generalizing pending held with
  | nil =>
    cases pending with
    | none => exact forall_mem_nil _
    | some sequence =>
      intro u member
      rw [mem_singleton.mp member]
      exact .inr ⟨rfl, (holds sequence rfl).broken⟩
  | cons byte rest ih =>
    have begun : ∀ u ∈ beginLetters byte ++
        readLetters (utf8Begin byte.toNat).2 [byte] rest, u.Read := by
      intro u member
      rcases mem_append.mp member with here | later
      · exact beginLetters_read byte here
      · exact ih (fun _ => begin_holds) u later
    cases pending with
    | none => exact begun
    | some sequence =>
      have held_ := holds sequence rfl
      rw [readLetters]
      dsimp only
      split
      · next inside =>
        split
        · next last =>
          intro u member
          rcases mem_cons.mp member with rfl | later
          · have encoded := held_.done inside last
            rw [Letter.Read, encoded]
            exact .inl rfl
          · refine ih ?_ u later
            intro _ begun
            exact absurd begun (Option.some_ne_none _).symm
        · next more =>
          refine ih ?_
          intro _ same
          rw [← Option.some.inj same]
          exact held_.next inside more
      · intro u member
        rcases mem_cons.mp member with rfl | later
        · exact .inr ⟨rfl, held_.broken⟩
        · exact begun u later

theorem readLetters_bytes (pending : Option Utf8Pending) (held bytes : Bytes) :
    (readLetters pending held bytes).flatMap Letter.bytes =
      (if pending.isSome then held else []) ++ bytes := by
  induction bytes generalizing pending held with
  | nil => cases pending <;> simp [readLetters]
  | cons byte rest ih =>
    have begun : (beginLetters byte ++
        readLetters (utf8Begin byte.toNat).2 [byte] rest).flatMap Letter.bytes = byte :: rest := by
      rw [flatMap_append, ih, beginLetters]
      rcases begin_cases byte with ⟨_, same⟩ | ⟨_, same, _⟩ | ⟨_, same⟩ <;> rw [same] <;> rfl
    cases pending with
    | none => exact begun
    | some sequence =>
      rw [readLetters]
      dsimp only
      split
      · split
        · rw [flatMap_cons, ih]
          simp
        · rw [ih]
          simp
      · rw [flatMap_cons, begun]
        rfl

/-- `stripBom`, on letters. -/
def stripBomLetters : List Letter → Bytes × List Letter
  | u :: rest => if u.char = bomChar then (u.bytes, rest) else ([], u :: rest)
  | [] => ([], [])

/-- `normalizeToLf`, on letters: a line feed has the bytes of the ending that it stands for. -/
def mergeEndings : List Letter → List Letter
  | [] => []
  | [u] => [if u.char = '\r' then ⟨u.bytes, '\n'⟩ else u]
  | u :: next :: rest =>
    if u.char = '\r' then
      if next.char = '\n' then ⟨u.bytes ++ next.bytes, '\n'⟩ :: mergeEndings rest
      else ⟨u.bytes, '\n'⟩ :: mergeEndings (next :: rest)
    else u :: mergeEndings (next :: rest)

def seenFile (raw : Bytes) : Bytes × List Letter :=
  let stripped := stripBomLetters (readLetters none [] raw)
  (stripped.1, mergeEndings stripped.2)

/-- How a letter of the normalized content can have been written. -/
inductive Letter.Seen : Letter → Prop
  | plain (c : Char) : Seen ⟨String.utf8EncodeChar c, c⟩
  | crlf : Seen ⟨[0x0D, 0x0A], '\n'⟩
  | cr : Seen ⟨[0x0D], '\n'⟩
  | broken {bytes : Bytes} (broken : Broken bytes) : Seen ⟨bytes, replacementChar⟩

theorem Letter.Read.seen (read : u.Read) : u.Seen := by
  obtain ⟨bytes, char⟩ := u
  rcases read with encoded | ⟨replaced, broken⟩
  · dsimp only at encoded
    rw [encoded]
    exact .plain char
  · dsimp only at replaced
    rw [replaced]
    exact .broken broken

theorem Letter.Read.encoded (read : u.Read) (whole : u.char ≠ replacementChar) :
    u.bytes = String.utf8EncodeChar u.char := by
  rcases read with encoded | ⟨replaced, _⟩
  · exact encoded
  · exact absurd replaced whole

theorem normalizeToLf_crlf (rest : Str) :
    normalizeToLf ('\r' :: '\n' :: rest) = '\n' :: normalizeToLf rest := by
  have first : Splice.replaceAll ['\r', '\n'] ['\n'] ('\r' :: '\n' :: rest) =
      '\n' :: Splice.replaceAll ['\r', '\n'] ['\n'] rest :=
    Splice.replaceAll_match (cons_ne_nil '\r' ['\n']) ['\n'] rest
  rw [normalizeToLf, first, Splice.replaceAll_pass (by simp), normalizeToLf]

theorem normalizeToLf_cr {rest : Str} (alone : rest.head? ≠ some '\n') :
    normalizeToLf ('\r' :: rest) = '\n' :: normalizeToLf rest := by
  have apart : ¬ ['\r', '\n'] <+: '\r' :: rest := by
    rintro ⟨behind, split⟩
    exact alone (by rw [← (cons.inj split).2]; rfl)
  rw [normalizeToLf, Splice.replaceAll_pass apart]
  exact Splice.replaceAll_match (cons_ne_nil '\r' []) ['\n'] _

theorem normalizeToLf_plain {c : Char} (other : c ≠ '\r') (rest : Str) :
    normalizeToLf (c :: rest) = c :: normalizeToLf rest := by
  have apart (old behind : Str) : ¬ '\r' :: old <+: c :: behind := by
    rintro ⟨_, split⟩
    exact other (cons.inj split).1.symm
  rw [normalizeToLf, Splice.replaceAll_pass (apart _ _), Splice.replaceAll_pass (apart _ _),
    normalizeToLf]

theorem mergeEndings_char (letters : List Letter) :
    (mergeEndings letters).map Letter.char = normalizeToLf (letters.map Letter.char) := by
  induction letters using mergeEndings.induct with
  | case1 => rfl
  | case2 u =>
    rw [mergeEndings]
    split
    · next cr =>
      rw [map_singleton, map_singleton, cr, normalizeToLf_cr (by simp)]
      rfl
    · next other =>
      rw [map_singleton, normalizeToLf_plain other]
      rfl
  | case3 u next rest cr lf ih =>
    rw [mergeEndings, if_pos cr, if_pos lf, map_cons, map_cons, map_cons, cr, lf,
      normalizeToLf_crlf, ih]
  | case4 u next rest cr other ih =>
    have alone : ((next :: rest).map Letter.char).head? ≠ some '\n' :=
      fun same => other (Option.some.inj same)
    rw [mergeEndings, if_pos cr, if_neg other, map_cons,
      map_cons (l := next :: rest), cr, normalizeToLf_cr alone, ih]
  | case5 u next rest other ih =>
    rw [mergeEndings, if_neg other, map_cons, map_cons (l := next :: rest),
      normalizeToLf_plain other, ih]

theorem mergeEndings_seen {letters : List Letter} (read : ∀ u ∈ letters, u.Read) :
    ∀ u ∈ mergeEndings letters, u.Seen := by
  have return_ {u : Letter} (own : u.Read) (cr : u.char = '\r') : u.bytes = [0x0D] := by
    rw [own.encoded (by rw [cr]; decide), cr]
    rfl
  induction letters using mergeEndings.induct with
  | case1 => exact forall_mem_nil _
  | case2 u =>
    rw [forall_mem_singleton] at read
    rw [mergeEndings, forall_mem_singleton]
    split
    · next cr =>
      rw [return_ read cr]
      exact .cr
    · exact read.seen
  | case3 u next rest cr lf ih =>
    rw [forall_mem_cons, forall_mem_cons] at read
    have feed : next.bytes = [0x0A] := by
      rw [read.2.1.encoded (by rw [lf]; decide), lf]
      rfl
    rw [mergeEndings, if_pos cr, if_pos lf, forall_mem_cons, return_ read.1 cr, feed]
    exact ⟨.crlf, ih read.2.2⟩
  | case4 u next rest cr other ih =>
    rw [forall_mem_cons] at read
    rw [mergeEndings, if_pos cr, if_neg other, forall_mem_cons, return_ read.1 cr]
    exact ⟨.cr, ih read.2⟩
  | case5 u next rest other ih =>
    rw [forall_mem_cons] at read
    rw [mergeEndings, if_neg other, forall_mem_cons]
    exact ⟨read.1.seen, ih read.2⟩

theorem read_file (raw : Bytes) : ∀ u ∈ readLetters none [] raw, u.Read :=
  readLetters_read raw nofun

theorem seenFile_seen (raw : Bytes) : ∀ u ∈ (seenFile raw).2, u.Seen := by
  refine mergeEndings_seen fun u member => read_file raw u ?_
  revert member
  cases readLetters none [] raw with
  | nil => exact id
  | cons first rest =>
    rw [stripBomLetters]
    split
    · exact mem_cons_of_mem first
    · exact id

theorem seenFile_text (raw : Bytes) :
    Str.asBytes (stripBom (fromUtf8Lossy raw).toList).1 = (seenFile raw).1 ∧
      normalizeToLf (stripBom (fromUtf8Lossy raw).toList).2 = (seenFile raw).2.map Letter.char := by
  have read := read_file raw
  rw [fromUtf8Lossy, String.toList_ofList, ← readLetters_char none [] raw, seenFile,
    mergeEndings_char]
  cases letters : readLetters none [] raw with
  | nil => exact ⟨rfl, rfl⟩
  | cons first rest =>
    rw [letters] at read
    rw [map_cons, stripBom, stripBomLetters]
    split
    · next mark =>
      have encoded := (read first mem_cons_self).encoded (by rw [mark]; decide)
      rw [encoded]
      exact ⟨append_nil _, rfl⟩
    · exact ⟨rfl, rfl⟩

end PiRust.EditTool
