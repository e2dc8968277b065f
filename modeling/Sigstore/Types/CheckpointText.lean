import Sigstore.Types.Checkpoint
import Sigstore.Types.Lines
import Sigstore.Types.Serialize

/-!
# Checkpoints as texts

The writer of a checkpoint's body (`to_signed_note_body`, `checkpoint.rs`), the signature lines that
the parser reads, and what the parser takes from the lines of each part: the body is read line by
line, trimmed (`fromParts_eq_ok_iff`), and a signature is read back from its line
(`parseSignatures_signatureLines`).
-/

namespace Sigstore.Types

open Checks

/-! ## Base64 texts -/

/-- A character of standard base64. -/
def isBase64Char (c : Char) : Bool := c.isAlphanum || c == '+' || c == '/' || c == '='

/-- No character of a base64 text is white space, so its lines are not trimmed. They are ASCII
characters, of which there are few enough to look at each. -/
theorem isWhitespace_of_isBase64Char {c : Char} (h : isBase64Char c = true) :
    isWhitespace c = false := by
  have hlow : c.toNat < 128 := by
    change (((decide ('A'.val ≤ c.val ∧ c.val ≤ 'Z'.val) ||
      (decide ('a'.val ≤ c.val) && decide (c.val ≤ 'z'.val))) ||
      (decide ('0'.val ≤ c.val) && decide (c.val ≤ '9'.val))) ||
      c == '+' || c == '/' || c == '=') = true at h
    simp only [Bool.or_eq_true, Bool.and_eq_true, decide_eq_true_eq, beq_iff_eq,
      UInt32.le_iff_toNat_le] at h
    have hchar : c.toNat = c.val.toNat := rfl
    have hupper : 'Z'.val.toNat = 90 := rfl
    have hlower : 'z'.val.toNat = 122 := rfl
    have hdigit : '9'.val.toNat = 57 := rfl
    rcases h with ((((h | h) | h) | rfl) | rfl) | rfl
    · omega
    · omega
    · omega
    all_goals decide
  have hall : ∀ n : Fin 128, isBase64Char (Char.ofNat n) = true →
      isWhitespace (Char.ofNat n) = false := by decide
  have := hall ⟨c.toNat, hlow⟩
  rw [Char.ofNat_toNat] at this
  exact this h

namespace Codec

/-- Base64 is written in its alphabet. -/
def Base64Alphabet (C : Codec) : Prop :=
  ∀ bs, ∀ c ∈ (C.base64Encode bs).toList, isBase64Char c = true

/-- Only one text of each byte string is decoded: its padding is in place, and the bits left over
are zero. -/
def StrictBase64 (C : Codec) : Prop :=
  ∀ s bs, C.base64Decode s = .ok bs → C.base64Encode bs = s

end Codec

namespace Checkpoint

variable (C : Codec)

/-! ## The writer -/

/-- `Checkpoint::to_signed_note_body`. -/
def toSignedNoteBody (c : Checkpoint) : String :=
  c.otherContent.foldl (fun result line => (result ++ line).push '\n')
    s!"{c.origin}\n{c.treeSize}\n{C.base64Encode c.rootHash.bytes}\n"

/-- A signature line as the parser's documentation has it. -/
def signatureLine (sig : CheckpointSignature) : String :=
  s!"— {sig.name} {C.base64Encode (sig.keyId.bytes ++ sig.signature)}"

/-- The lines of the body. -/
def bodyLines (c : Checkpoint) : List String :=
  c.origin :: toString c.treeSize :: C.base64Encode c.rootHash.bytes :: c.otherContent

/-- The body of a note is its lines, each with a line feed. The source pushes the lines on a string
one by one, with the feed after each. -/
theorem toSignedNoteBody_eq (c : Checkpoint) :
    c.toSignedNoteBody C = joinLines (c.bodyLines C) := by
  have hpush : ∀ (ls : List String) (s : String),
      ls.foldl (fun result line => (result ++ line).push '\n') s = s ++ joinLines ls := by
    intro ls
    induction ls with
    | nil =>
      intro s
      simp [joinLines]
    | cons l ls ih =>
      intro s
      rw [List.foldl_cons, ih, ← String.toList_inj]
      simp [joinLines]
  rw [toSignedNoteBody, hpush, ← String.toList_inj]
  simp [joinLines, bodyLines, toString]

/-! ## The parser -/

variable {C}

theorem sha256FromSlice_eq_ok {bs : Bytes} {hash : Sha256Hash} :
    Codec.sha256FromSlice bs = .ok hash ↔ bs = hash.bytes := by
  rw [Codec.sha256FromSlice, mapError_eq_ok]
  constructor
  · intro h
    unfold Sha256Hash.tryFromSlice at h
    split at h
    · cases h
      rfl
    · cases h
  · rintro rfl
    exact hash.tryFromSlice_bytes

/-- The next line is taken from the front and trimmed. -/
theorem nextLine_eq_ok {what : String} {ls : List String} {p : String × List String} :
    nextLine what ls = .ok p ↔ ∃ l, ls = l :: p.2 ∧ p.1 = trim l := by
  cases ls with
  | nil => simp [nextLine]
  | cons l ls =>
    obtain ⟨first, rest⟩ := p
    simp [nextLine, eq_comm, and_comm]

/-- What the parser takes from the lines of the body and of the signatures. The lines after the
third are trimmed and kept where they are not blank then, so that some lines of the text leave no
trace in the value. -/
theorem fromParts_eq_ok_iff {body sigs : String} {c : Checkpoint} :
    fromParts C body sigs = .ok c ↔
      ∃ origin size root rest, lines body = origin :: size :: root :: rest ∧
        trim origin ≠ "" ∧ parseU64 (trim size) = some c.treeSize ∧
        C.base64Decode (trim root) = .ok c.rootHash.bytes ∧
        parseSignatures C (lines sigs) = .ok c.signatures ∧ c.signatures ≠ [] ∧
        c.origin = trim origin ∧ c.otherContent = (rest.map trim).filter (· ≠ "") ∧
        c.signedNoteText = body ++ "\n" := by
  simp only [fromParts, bind_eq_ok, mapError_eq_ok, okOr_eq_ok, rejectIf_eq_ok, pure_eq_ok,
    nextLine_eq_ok, sha256FromSlice_eq_ok]
  constructor
  · rintro ⟨⟨_, ls⟩, ⟨origin, hbody, rfl⟩, _, hne, ⟨_, ls'⟩, ⟨size, rfl, rfl⟩, treeSize, hsize,
      ⟨_, rest⟩, ⟨root, rfl, rfl⟩, _, hroot, hash, rfl, signatures, hsigs, _, hsome, rfl⟩
    exact ⟨origin, size, root, rest, hbody, hne, hsize, hroot, hsigs, hsome, rfl, rfl, rfl⟩
  · rintro ⟨origin, size, root, rest, hbody, hne, hsize, hroot, hsigs, hsome, horigin, hother,
      htext⟩
    refine ⟨(trim origin, size :: root :: rest), ⟨origin, hbody, rfl⟩, (), hne,
      (trim size, root :: rest), ⟨size, rfl, rfl⟩, c.treeSize, hsize, (trim root, rest),
      ⟨root, rfl, rfl⟩, _, hroot, c.rootHash, rfl, c.signatures, hsigs, (), hsome, ?_⟩
    cases c
    cases horigin
    cases hother
    cases htext
    rfl

/-- The words of a text are read off it, where a space stands between them. -/
theorem splitOnP_word {w : List Char} (hne : w ≠ [])
    (hw : ∀ c ∈ w, isWhitespace c = false) (cs : List Char) :
    ((w ++ ' ' :: cs).splitOnP isWhitespace).filter (· ≠ []) =
      w :: (cs.splitOnP isWhitespace).filter (· ≠ []) := by
  rw [List.splitOnP_append_cons_of_forall_mem hw ' ' (by decide)]
  simp [hne]

section
variable (hC : C.LawfulBase64) (halphabet : C.Base64Alphabet)
include hC

/-- Something is encoded to some text. -/
theorem base64Encode_ne_empty {bs : Bytes} (h : bs ≠ []) : C.base64Encode bs ≠ "" := by
  intro hempty
  have hlength := hC.length_encode bs
  have hpos := List.length_pos_of_ne_nil h
  rw [hempty] at hlength
  have hzero : (utf8Bytes "").length = 0 := rfl
  omega

include halphabet

/-- A signature is read back from its line, which the parser does not trim. The name is one word and
the base64 text another, which is what splitting the line at white space needs. -/
theorem parseSignature_signatureLine {sig : CheckpointSignature} (hname : sig.name ≠ "")
    (hword : ∀ c ∈ sig.name.toList, isWhitespace c = false) (hsig : sig.signature ≠ []) :
    trim (signatureLine C sig) = signatureLine C sig ∧ '\n' ∉ (signatureLine C sig).toList ∧
      signatureLine C sig ≠ "" ∧ parseSignature C (signatureLine C sig) = .ok sig := by
  have hb64 : C.base64Encode (sig.keyId.bytes ++ sig.signature) ≠ "" :=
    base64Encode_ne_empty hC (by simp [hsig])
  have hblank : ∀ c ∈ (C.base64Encode (sig.keyId.bytes ++ sig.signature)).toList,
      isWhitespace c = false := fun c hc => isWhitespace_of_isBase64Char (halphabet _ c hc)
  generalize htext : C.base64Encode (sig.keyId.bytes ++ sig.signature) = text at hb64 hblank
  have hchars : (signatureLine C sig).toList =
      '—' :: ' ' :: (sig.name.toList ++ ' ' :: text.toList) := by
    simp [signatureLine, htext, toString]
  have hlast : ∀ c ∈ (signatureLine C sig).toList.getLast?, isWhitespace c = false := by
    have hne : text.toList ≠ [] := by simpa using hb64
    obtain ⟨start, c, hend⟩ := List.eq_nil_or_concat' text.toList |>.resolve_left hne
    intro d hd
    have hd : d = c := by
      rw [hchars, hend] at hd
      have happend : '—' :: ' ' :: (sig.name.toList ++ ' ' :: (start ++ [c])) =
          ('—' :: ' ' :: (sig.name.toList ++ ' ' :: start)) ++ [c] := by simp
      rw [happend, List.getLast?_concat] at hd
      exact (Option.some.inj hd).symm
    exact hblank d (by simp [hend, hd])
  refine ⟨?_, ?_, ?_, ?_⟩
  · rw [trim, trimChars_eq_self ?_ hlast, String.ofList_toList]
    rw [hchars]
    intro c hc
    cases hc
    decide
  · have hfeed : ∀ l : List Char, (∀ c ∈ l, isWhitespace c = false) → '\n' ∉ l :=
      fun l hl hmem => absurd (hl '\n' hmem) (by decide)
    rw [hchars]
    simp [hfeed _ hword, hfeed _ hblank]
  · rw [Ne, ← String.toList_inj, hchars]
    simp
  · have hwords : splitWhitespace (signatureLine C sig) = ["—", sig.name, text] := by
      rw [splitWhitespace, hchars]
      have hdash : ∀ c ∈ ['—'], isWhitespace c = false := by
        intro c hc
        rw [List.mem_singleton.1 hc]
        rfl
      have hrest := splitOnP_word (w := ['—']) (by simp) hdash
        (sig.name.toList ++ ' ' :: text.toList)
      rw [List.singleton_append] at hrest
      rw [hrest, splitOnP_word (by simpa using hname) hword, List.splitOnP_eq_singleton hblank]
      simp [hb64]
    have hstart : startsWith (signatureLine C sig) "—" = true := by
      rw [startsWith, hchars]
      rfl
    have hdecode : C.base64Decode text = .ok (sig.keyId.bytes ++ sig.signature) := by
      rw [← htext]
      exact hC.decode_encode _
    have hlong : ¬ (sig.keyId.bytes ++ sig.signature).length < 5 := by
      have := List.length_pos_of_ne_nil hsig
      rw [List.length_append, sig.keyId.length_bytes]
      omega
    have htake : (sig.keyId.bytes ++ sig.signature).take 4 = sig.keyId.bytes :=
      List.take_left' sig.keyId.length_bytes
    have hdrop : (sig.keyId.bytes ++ sig.signature).drop 4 = sig.signature :=
      List.drop_left' sig.keyId.length_bytes
    have hkey : KeyHint.tryFromSlice sig.keyId.bytes = .ok sig.keyId :=
      dif_pos sig.keyId.length_bytes
    simp only [parseSignature, hwords, hstart, bind_eq_ok, rejectIf_eq_ok, mapError_eq_ok,
      pure_eq_ok]
    exact ⟨(), by simp, _, hdecode, (), hlong, sig.keyId, htake.symm ▸ hkey, by rw [hdrop]⟩

/-- The signatures are read back from their lines, where the names have no white space and the
signatures some bytes. -/
theorem parseSignatures_signatureLines {sigs : List CheckpointSignature}
    (h : ∀ sig ∈ sigs, sig.name ≠ "" ∧ (∀ c ∈ sig.name.toList, isWhitespace c = false) ∧
      sig.signature ≠ []) :
    parseSignatures C (sigs.map (signatureLine C)) = .ok sigs := by
  induction sigs with
  | nil => rfl
  | cons sig sigs ih =>
    obtain ⟨hname, hword, hsig⟩ := h sig List.mem_cons_self
    obtain ⟨htrim, -, hne, hparse⟩ := parseSignature_signatureLine hC halphabet hname hword hsig
    have hrest := ih fun sig hmem => h sig (List.mem_cons_of_mem _ hmem)
    simp only [List.map_cons, parseSignatures, htrim, hne, if_false, hparse, hrest]
    rfl

end

/-- A text is parsed by its parts before and after the first blank line. What follows a second one
is not read. -/
theorem fromText_of_split {text : String} {body sigs : List Char} {rest : List (List Char)}
    (h : splitBlankLine text.toList = body :: sigs :: rest) :
    fromText C text = fromParts C (String.ofList body) (String.ofList sigs) := by
  have htext : text ≠ "" := by
    rintro rfl
    cases h
  rw [fromText, if_neg htext, h]

/-- A text that is parsed has a blank line. -/
theorem exists_split_of_fromText {text : String} {c : Checkpoint} (h : fromText C text = .ok c) :
    ∃ body sigs rest, splitBlankLine text.toList = body :: sigs :: rest ∧
      fromParts C (String.ofList body) (String.ofList sigs) = .ok c := by
  unfold fromText at h
  split at h
  · cases h
  · split at h
    · next body sigs rest hsplit => exact ⟨body, sigs, rest, hsplit, h⟩
    · cases h

/-- A text of two blocks of lines without blank lines, and a blank line between them. The first
blank line is the one that was written, since no line of either block is blank. -/
theorem fromText_blocks {ls sigs : List String} (hne : ls ≠ [])
    (hls : ∀ l ∈ ls, l ≠ "" ∧ '\n' ∉ l.toList) (hsigs : ∀ l ∈ sigs, l ≠ "" ∧ '\n' ∉ l.toList) :
    fromText C (joinLines ls ++ "\n" ++ joinLines sigs) =
      fromParts C (String.ofList (interLines ls)) (joinLines sigs) := by
  have hsplit : splitBlankLine (joinLines ls ++ "\n" ++ joinLines sigs).toList =
      [interLines ls, (joinLines sigs).toList] := by
    have htext : (joinLines ls ++ "\n" ++ joinLines sigs).toList =
        interLines ls ++ '\n' :: '\n' :: (joinLines sigs).toList := by
      simp [joinLines_eq hne]
    rw [htext, splitBlankLine_interLines (fun l hl => (hls l hl).2) fun l hl => (hls l hl).1,
      splitBlankLine_joinLines (fun l hl => (hsigs l hl).2) fun l hl => (hsigs l hl).1]
  rw [fromText_of_split hsplit, String.ofList_toList]

end Checkpoint

end Sigstore.Types
