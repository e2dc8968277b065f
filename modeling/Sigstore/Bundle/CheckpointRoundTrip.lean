import Sigstore.Bundle.RoundTrip
import Sigstore.Types.CheckpointText

/-!
# Checkpoints as texts, there and back

A checkpoint is read back from the text that it is written to (`fromText_toText`). The other way
round, the parser trims lines and drops those that are blank then, and takes numbers with a sign or
with leading zeros: a text that is accepted has the body that its checkpoint is written to if and
only if that body is canonical (`toSignedNoteBody_eq_signedData_iff`).
-/

namespace Sigstore.Types.Checkpoint

open Checks

/-! ## Decode undoes encode -/

/-- A checkpoint that the format can write: its lines are not empty and their own trims, and its
signers' names are words. -/
structure WellFormed (c : Checkpoint) : Prop where
  origin : c.origin ≠ "" ∧ trim c.origin = c.origin ∧ '\n' ∉ c.origin.toList
  otherContent : ∀ l ∈ c.otherContent, l ≠ "" ∧ trim l = l ∧ '\n' ∉ l.toList
  signatures_ne_nil : c.signatures ≠ []
  signatures : ∀ sig ∈ c.signatures, sig.name ≠ "" ∧
    (∀ ch ∈ sig.name.toList, isWhitespace ch = false) ∧ sig.signature ≠ []

/-- The text of a checkpoint: its body, a blank line, and a line for each signature. -/
def toText (C : Codec) (c : Checkpoint) : String :=
  c.toSignedNoteBody C ++ "\n" ++ joinLines (c.signatures.map (signatureLine C))

section
variable {C : Codec} (hC : C.LawfulBase64)
include hC

/-- The base64 text of a root hash is not empty: it encodes 32 bytes. -/
theorem base64Encode_rootHash (c : Checkpoint) : C.base64Encode c.rootHash.bytes ≠ "" :=
  base64Encode_ne_empty hC (List.ne_nil_of_length_pos (by simp [c.rootHash.length_bytes]))

omit hC in
/-- The decimal text of a tree size is a line of its own, without blanks around it. -/
theorem treeSize_line (c : Checkpoint) : toString c.treeSize ≠ "" ∧
    trim (toString c.treeSize) = toString c.treeSize ∧ '\n' ∉ (toString c.treeSize).toList := by
  obtain ⟨hne, hdigit, -⟩ := isDecimal_toString c.treeSize
  refine ⟨hne, line_of_forall fun ch hch => isWhitespace_of_isBase64Char ?_⟩
  simp [isBase64Char, Char.isAlphanum, hdigit ch hch]

/-- Every line of a well-formed checkpoint's body is read back as it is: it is not empty, has no
blanks around it and no line feed in it. -/
theorem bodyLines_spec (halphabet : C.Base64Alphabet) {c : Checkpoint} (h : c.WellFormed) :
    ∀ l ∈ c.bodyLines C, l ≠ "" ∧ trim l = l ∧ '\n' ∉ l.toList := by
  intro l hl
  simp only [bodyLines, List.mem_cons] at hl
  rcases hl with rfl | rfl | rfl | hl
  · exact h.origin
  · exact treeSize_line c
  · exact ⟨base64Encode_rootHash hC c, line_of_forall fun ch hch =>
      isWhitespace_of_isBase64Char (halphabet _ ch hch)⟩
  · exact h.otherContent l hl

/-- What is parsed from lines that reading does not change, and lines of signatures. The lines may
have blanks around them, which are trimmed, and a number that is not written in its canonical form.
-/
theorem fromText_of_lines (halphabet : C.Base64Alphabet) {c : Checkpoint}
    {origin size root : String} {other : List String}
    (hls : ∀ l ∈ origin :: size :: root :: other,
      l ≠ "" ∧ '\n' ∉ l.toList ∧ l.toList.getLast? ≠ some '\r')
    (horigin : c.origin = trim origin) (hne : c.origin ≠ "")
    (hsize : parseU64 (trim size) = some c.treeSize)
    (hroot : C.base64Decode (trim root) = .ok c.rootHash.bytes)
    (hother : c.otherContent = (other.map trim).filter (· ≠ "")) (hsome : c.signatures ≠ [])
    (hsigs : ∀ sig ∈ c.signatures, sig.name ≠ "" ∧
      (∀ ch ∈ sig.name.toList, isWhitespace ch = false) ∧ sig.signature ≠ [])
    (htext : c.signedNoteText = joinLines (origin :: size :: root :: other)) :
    fromText C (joinLines (origin :: size :: root :: other) ++ "\n" ++
      joinLines (c.signatures.map (signatureLine C))) = .ok c := by
  have hline := fun sig hsig => parseSignature_signatureLine hC halphabet (hsigs sig hsig).1
    (hsigs sig hsig).2.1 (hsigs sig hsig).2.2
  have hsigLine : ∀ l ∈ c.signatures.map (signatureLine C),
      trim l = l ∧ '\n' ∉ l.toList ∧ l ≠ "" :=
    List.forall_mem_map.2 fun sig hsig =>
      ⟨(hline sig hsig).1, (hline sig hsig).2.1, (hline sig hsig).2.2.1⟩
  have hlines : lines (String.ofList (interLines (origin :: size :: root :: other))) =
      origin :: size :: root :: other :=
    lines_interLines (fun l hl => (hls l hl).2.1) (fun l hl => (hls l hl).2.2)
      fun l hl => (hls l hl).1
  have hsigLines : lines (joinLines (c.signatures.map (signatureLine C))) =
      c.signatures.map (signatureLine C) :=
    lines_joinLines (fun l hl => (hsigLine l hl).2.1)
      fun l hl => getLast?_ne_return (hsigLine l hl).1
  rw [fromText_blocks (by simp) (fun l hl => ⟨(hls l hl).1, (hls l hl).2.1⟩)
    fun l hl => ⟨(hsigLine l hl).2.2, (hsigLine l hl).2.1⟩]
  refine fromParts_eq_ok_iff.2 ⟨origin, size, root, other, hlines, horigin ▸ hne, hsize, hroot, ?_,
    hsome, horigin, hother, ?_⟩
  · rw [hsigLines]
    exact parseSignatures_signatureLines hC halphabet hsigs
  · rw [htext]
    exact joinLines_eq (by simp)

/-- A checkpoint is read back from its text. The parsed checkpoint keeps the text that it was read
from, which is the body. -/
theorem fromText_wellFormed (halphabet : C.Base64Alphabet) {c : Checkpoint} (h : c.WellFormed) :
    fromText C (c.toText C) = .ok { c with signedNoteText := c.toSignedNoteBody C } := by
  have hbody := bodyLines_spec hC halphabet h
  have htrim : ∀ l ∈ c.bodyLines C, trim l = l := fun l hl => (hbody l hl).2.1
  simp only [bodyLines, List.forall_mem_cons] at htrim
  obtain ⟨horigin, hsize, hroot, hother⟩ := htrim
  rw [toText, toSignedNoteBody_eq]
  refine fromText_of_lines (c := { c with signedNoteText := joinLines (c.bodyLines C) }) hC
    halphabet (fun l hl => ⟨(hbody l hl).1, (hbody l hl).2.2, getLast?_ne_return (hbody l hl).2.1⟩)
    horigin.symm h.origin.1 ?_ ?_ ?_ h.signatures_ne_nil h.signatures rfl
  · rw [hsize, parseU64_toString]
  · rw [hroot, hC.decode_encode]
  · rw [List.map_congr_left hother, List.map_id', List.filter_eq_self.2]
    exact fun l hl => by simpa using (h.otherContent l hl).1

/-- **Decode undoes encode.** The text of a checkpoint, with any origin, size, root hash and
extension lines and any signatures that the format can write, is parsed to the same fields in the
same order, and its signatures cover the body that was written. -/
theorem fromText_toText (halphabet : C.Base64Alphabet) {c : Checkpoint} (h : c.WellFormed) :
    ∃ parsed, fromText C (c.toText C) = .ok parsed ∧ parsed.origin = c.origin ∧
      parsed.treeSize = c.treeSize ∧ parsed.rootHash = c.rootHash ∧
      parsed.otherContent = c.otherContent ∧ parsed.signatures = c.signatures ∧
      parsed.signedData = utf8Bytes (c.toSignedNoteBody C) :=
  ⟨_, fromText_wellFormed hC halphabet h, rfl, rfl, rfl, rfl, rfl, rfl⟩

/-! ## Encode undoes decode -/

omit hC in
/-- The lines of a text before its first blank line. -/
def noteLines (text : String) : List String := pieces ((splitBlankLine text.toList).headD [])

/-- The body of a text is canonical: no line is empty or has white space around it, and the tree
size, on the second line, is written without a sign and without zeros before it. -/
def Canonical (text : String) : Prop :=
  (∀ l ∈ noteLines text, l ≠ "" ∧ trim l = l) ∧ ∀ size ∈ (noteLines text)[1]?, IsDecimal size

/-- What the parser takes from a body can be written: the lines are trimmed, and those that are
blank then are dropped. -/
theorem bodyLines_of_fromParts (hstrict : C.StrictBase64) {body sigs : String} {c : Checkpoint}
    (h : fromParts C body sigs = .ok c) :
    ∀ l ∈ c.bodyLines C, l ≠ "" ∧ trim l = l ∧ '\n' ∉ l.toList := by
  obtain ⟨origin, size, root, other, hlines, hne, hsize, hroot, -, -, horigin, hother, -⟩ :=
    fromParts_eq_ok_iff.1 h
  have hline : ∀ l ∈ lines body, trim (trim l) = trim l ∧ '\n' ∉ (trim l).toList :=
    fun l hl => ⟨trim_trim l, fun hfeed => mem_lines hl (mem_of_mem_trim hfeed)⟩
  rw [hlines] at hline
  simp only [List.forall_mem_cons] at hline
  obtain ⟨horiginLine, -, hrootLine, hotherLine⟩ := hline
  intro l hl
  simp only [bodyLines, List.mem_cons] at hl
  rcases hl with rfl | rfl | rfl | hl
  · rw [horigin]
    exact ⟨hne, horiginLine⟩
  · exact treeSize_line c
  · refine ⟨base64Encode_rootHash hC c, ?_⟩
    rw [hstrict _ _ hroot]
    exact hrootLine
  · rw [hother, List.mem_filter, List.mem_map] at hl
    obtain ⟨⟨line, hmem, rfl⟩, hnonempty⟩ := hl
    exact ⟨by simpa using hnonempty, hotherLine line hmem⟩

/-- **Encode undoes decode exactly on canonical bodies.** The body is written from what was parsed,
so it is the signed text exactly where no line of that was trimmed, dropped or written in another
way. -/
theorem toSignedNoteBody_eq_signedData_iff (hstrict : C.StrictBase64) {text : String}
    {c : Checkpoint} (h : fromText C text = .ok c) :
    utf8Bytes (c.toSignedNoteBody C) = c.signedData ↔ Canonical text := by
  obtain ⟨body, sigs, rest, hsplit, h⟩ := exists_split_of_fromText h
  have hnote : noteLines text = pieces body := by
    rw [noteLines, hsplit]
    rfl
  have hwritten := bodyLines_of_fromParts hC hstrict h
  obtain ⟨origin, size, root, other, hlines, -, hsize, hroot, -, -, horigin, hother, htext⟩ :=
    fromParts_eq_ok_iff.1 h
  have hnil : c.bodyLines C ≠ [] := by simp [bodyLines]
  rw [Canonical, hnote, signedData, utf8Bytes_injective.eq_iff, htext, toSignedNoteBody_eq,
    joinLines_eq hnil]
  constructor
  · intro heq
    have hbody : body = interLines (c.bodyLines C) := by
      have hchars := congrArg String.toList heq
      simpa using hchars.symm
    rw [hbody, pieces_interLines hnil fun l hl => (hwritten l hl).2.2]
    refine ⟨fun l hl => ⟨(hwritten l hl).1, (hwritten l hl).2.1⟩, fun s hs => ?_⟩
    cases hs
    exact isDecimal_toString c.treeSize
  · rintro ⟨hcanonical, hdecimal⟩
    -- a canonical body is read as it is
    have hread : pieces body = origin :: size :: root :: other := by
      rw [← hlines]
      conv_rhs => rw [← interLines_pieces body]
      exact (lines_interLines (fun l => feed_not_mem_pieces)
        (fun l hl => getLast?_ne_return (hcanonical l hl).2) fun l hl => (hcanonical l hl).1).symm
    rw [hread] at hcanonical hdecimal
    simp only [List.forall_mem_cons] at hcanonical
    obtain ⟨⟨-, horiginTrim⟩, ⟨-, hsizeTrim⟩, ⟨-, hrootTrim⟩, hotherTrim⟩ := hcanonical
    have hbody : c.bodyLines C = pieces body := by
      rw [hread, bodyLines, horigin, horiginTrim, hstrict _ _ hroot, hrootTrim, hother,
        List.map_congr_left fun l hl => (hotherTrim l hl).2, List.map_id', List.filter_eq_self.2,
        (toString_eq_iff_isDecimal (hsizeTrim ▸ hsize)).2 (hdecimal size rfl)]
      exact fun l hl => by simpa using (hotherTrim l hl).1
    rw [hbody, interLines_pieces]

end

end Sigstore.Types.Checkpoint

namespace Sigstore.Verify.Sample

open Types

/-- The value of a base64 character determines the character. -/
theorem base64Char_of_base64Value {a : UInt8} {w : Nat} (h : base64Value a = some w) :
    w < 64 ∧ (base64Char w).toUInt8 = a := by
  have hall : ∀ n : Fin 256, ∀ w ∈ base64Value (UInt8.ofNat n), w < 64 ∧
      (base64Char w).toUInt8 = UInt8.ofNat n := by
    decide +kernel
  have hn := hall ⟨a.toNat, a.toNat_lt⟩
  rw [UInt8.ofNat_toNat] at hn
  exact hn w h

/-- A base64 character is one byte in UTF-8, the one whose value it has. -/
theorem utf8EncodeChar_base64Char {a : UInt8} {w : Nat} (h : base64Value a = some w) :
    w < 64 ∧ String.utf8EncodeChar (base64Char w) = [a] := by
  obtain ⟨hlt, rfl⟩ := base64Char_of_base64Value h
  exact ⟨hlt, (base64Char_spec hlt).1⟩

theorem toNat_byte {n : Nat} (h : n < 256) : (UInt8.ofNat n).toNat = n :=
  UInt8.toNat_ofNat_of_lt' h

/-- Bytes are decoded only from their text. The padded groups need the check of the decoder that the
unused bits are zero. -/
theorem base64_unbase64 {l bs : Bytes} (h : unbase64 l = some bs) :
    (base64 bs).flatMap String.utf8EncodeChar = l := by
  have hpad : String.utf8EncodeChar '=' = [0x3d] := rfl
  have hpadded : ∀ n : Nat, n % 4 = 0 → n / 1024 * 1024 + n / 4 % 256 * 4 = n := by omega
  have hwhole : ∀ n : Nat, n / 65536 * 65536 + n / 256 % 256 * 256 + n % 256 = n := by omega
  induction l using unbase64.induct generalizing bs with
  | case1 =>
    cases h
    rfl
  | case2 a b =>
    rw [unbase64.eq_2] at h
    simp only [Option.bind_eq_bind, Option.bind_eq_some_iff] at h
    obtain ⟨w, hw, x, hx, h⟩ := h
    split at h
    · next hbits =>
      cases h
      obtain ⟨hwlt, hwchar⟩ := utf8EncodeChar_base64Char hw
      obtain ⟨hxlt, hxchar⟩ := utf8EncodeChar_base64Char hx
      have hn : (UInt8.ofNat ((w * 64 + x) / 16)).toNat = (w * 64 + x) / 16 :=
        toNat_byte (by omega)
      have hfirst : (w * 64 + x) / 16 / 4 = w := by omega
      have hsecond : (w * 64 + x) / 16 * 16 % 64 = x := by omega
      simp only [base64, hn, hfirst, hsecond, List.flatMap_cons, List.flatMap_nil, hwchar, hxchar,
        hpad, List.singleton_append]
    · cases h
  | case3 a b c hc =>
    rw [unbase64.eq_3 _ _ _ hc] at h
    simp only [Option.bind_eq_bind, Option.bind_eq_some_iff] at h
    obtain ⟨w, hw, x, hx, y, hy, h⟩ := h
    split at h
    · next hbits =>
      cases h
      obtain ⟨hwlt, hwchar⟩ := utf8EncodeChar_base64Char hw
      obtain ⟨hxlt, hxchar⟩ := utf8EncodeChar_base64Char hx
      obtain ⟨hylt, hychar⟩ := utf8EncodeChar_base64Char hy
      generalize hn : w * 4096 + x * 64 + y = n at hbits ⊢
      have hsum := hpadded n hbits
      have hfirst : n / 4096 = w := by omega
      have hsecond : n / 64 % 64 = x := by omega
      have hthird : n % 64 = y := by omega
      have hn1 : (UInt8.ofNat (n / 1024)).toNat = n / 1024 := toNat_byte (by omega)
      have hn2 : (UInt8.ofNat (n / 4 % 256)).toNat = n / 4 % 256 := toNat_byte (by omega)
      simp only [base64, hn1, hn2, hsum, hfirst, hsecond, hthird, List.flatMap_cons,
        List.flatMap_nil, hwchar, hxchar, hychar, hpad, List.singleton_append]
    · cases h
  | case4 a b c d l hc hd ih =>
    rw [unbase64.eq_4 _ _ _ _ _ hc hd] at h
    simp only [Option.bind_eq_bind, Option.bind_eq_some_iff] at h
    obtain ⟨w, hw, x, hx, y, hy, z, hz, rest, hrest, h⟩ := h
    cases h
    obtain ⟨hwlt, hwchar⟩ := utf8EncodeChar_base64Char hw
    obtain ⟨hxlt, hxchar⟩ := utf8EncodeChar_base64Char hx
    obtain ⟨hylt, hychar⟩ := utf8EncodeChar_base64Char hy
    obtain ⟨hzlt, hzchar⟩ := utf8EncodeChar_base64Char hz
    generalize hn : w * 262144 + x * 4096 + y * 64 + z = n
    have hsum := hwhole n
    have hfirst : n / 262144 = w := by omega
    have hsecond : n / 4096 % 64 = x := by omega
    have hthird : n / 64 % 64 = y := by omega
    have hfourth : n % 64 = z := by omega
    have hn1 : (UInt8.ofNat (n / 65536)).toNat = n / 65536 := toNat_byte (by omega)
    have hn2 : (UInt8.ofNat (n / 256 % 256)).toNat = n / 256 % 256 := toNat_byte (by omega)
    have hn3 : (UInt8.ofNat (n % 256)).toNat = n % 256 := toNat_byte (by omega)
    simp only [base64, hn1, hn2, hn3, hsum, hfirst, hsecond, hthird, hfourth, List.flatMap_cons,
      hwchar, hxchar, hychar, hzchar, ih hrest, List.singleton_append]
  | case5 l hnil hpadPad hpadOne hlong =>
    rw [unbase64.eq_5 _ hnil hpadPad hpadOne hlong] at h
    cases h

/-- The decoder of the deployment is strict: a text that it decodes is the encoding of what it is
decoded to. The induction follows the groups of four characters, the padded ones last. -/
theorem strictBase64_codec : codec.StrictBase64 := by
  intro s bs h
  have hread : unbase64 (utf8Bytes s) = some bs := Checks.okOr_eq_ok.1 h
  refine utf8Bytes_injective ?_
  show utf8Bytes (text64 bs) = utf8Bytes s
  rw [utf8Bytes_eq_flatMap, text64, String.toList_ofList, base64_unbase64 hread]

/-- An encoding consists of characters of the alphabet and padding. The values of the six bits are
all below 64. -/
theorem isBase64Char_of_mem_base64 {bs : Bytes} {c : Char} (h : c ∈ base64 bs) :
    isBase64Char c = true := by
  have hchar : ∀ n : Nat, n < 64 → isBase64Char (base64Char n) = true := by
    have hall : ∀ n : Fin 64, isBase64Char (base64Char n) = true := by decide
    exact fun n hn => hall ⟨n, hn⟩
  have hpad : isBase64Char '=' = true := rfl
  fun_induction base64 bs with
  | case1 a b d l n ih =>
    have ha := a.toNat_lt
    have hb := b.toNat_lt
    have hd := d.toNat_lt
    simp only [List.mem_cons] at h
    rcases h with rfl | rfl | rfl | rfl | h
    · exact hchar _ (by omega)
    · exact hchar _ (by omega)
    · exact hchar _ (by omega)
    · exact hchar _ (by omega)
    · exact ih h
  | case2 a b n =>
    have ha := a.toNat_lt
    have hb := b.toNat_lt
    simp only [List.mem_cons, List.not_mem_nil, or_false] at h
    rcases h with rfl | rfl | rfl | rfl
    · exact hchar _ (by omega)
    · exact hchar _ (by omega)
    · exact hchar _ (by omega)
    · exact hpad
  | case3 a =>
    have ha := a.toNat_lt
    simp only [List.mem_cons, List.not_mem_nil, or_false] at h
    rcases h with rfl | rfl | rfl | rfl
    · exact hchar _ (by omega)
    · exact hchar _ (by omega)
    · exact hpad
    · exact hpad
  | case4 => cases h

/-- The encoder of the deployment keeps to the alphabet of base64. -/
theorem base64Alphabet_codec : codec.Base64Alphabet := by
  intro bs c hc
  have hmem : c ∈ (text64 bs).toList := hc
  rw [text64, String.toList_ofList] at hmem
  exact isBase64Char_of_mem_base64 hmem

/-- A checkpoint with an extension line and two signatures. -/
def note : Checkpoint :=
  { origin := "log 1"
    treeSize := 5
    rootHash := Merkle.Sample.leafA
    otherContent := ["Time: 7"]
    signatures := [⟨"log", ⟨[0, 0, 0, 1], rfl⟩, [0x01]⟩, ⟨"w", ⟨[0, 0, 0, 2], rfl⟩, [0x02, 0x03]⟩]
    signedNoteText := "" }

theorem wellFormed_note : note.WellFormed where
  origin := by decide
  otherContent := by decide
  signatures_ne_nil := by simp [note]
  signatures := by
    have hlog : "log".toList = ['l', 'o', 'g'] := by decide
    have hw : "w".toList = ['w'] := by decide
    simp [note, hlog, hw, isWhitespace]

/-- The note with two signatures and another line is read back from its text. Two logs signed it,
and the line after the root hash is kept with the body. -/
theorem fromText_toText_note :
    note.WellFormed ∧ ∃ parsed, Checkpoint.fromText codec (note.toText codec) = .ok parsed ∧
      parsed.origin = "log 1" ∧ parsed.treeSize = 5 ∧ parsed.rootHash = Merkle.Sample.leafA ∧
      parsed.otherContent = ["Time: 7"] ∧ parsed.signatures = note.signatures ∧
      parsed.signedData = utf8Bytes (note.toSignedNoteBody codec) :=
  ⟨wellFormed_note,
    Checkpoint.fromText_toText lawfulBase64_codec base64Alphabet_codec wellFormed_note⟩

/-- The checkpoint's body with a plus sign before the tree size. -/
def plusLines : List String := ["log 1", "+5", codec.base64Encode note.rootHash.bytes, "Time: 7"]

def plusText : String :=
  joinLines plusLines ++ "\n" ++ joinLines (note.signatures.map (Checkpoint.signatureLine codec))

/-- The root hash of the note is a line of its own. -/
theorem note_rootHash : codec.base64Encode note.rootHash.bytes ≠ "" ∧
    trim (codec.base64Encode note.rootHash.bytes) = codec.base64Encode note.rootHash.bytes ∧
    '\n' ∉ (codec.base64Encode note.rootHash.bytes).toList :=
  Checkpoint.bodyLines_spec lawfulBase64_codec base64Alphabet_codec wellFormed_note _
    (by simp [Checkpoint.bodyLines])

/-- The lines with the size `+5` are lines of a body, too. -/
theorem plusLines_spec : ∀ l ∈ plusLines,
    l ≠ "" ∧ '\n' ∉ l.toList ∧ l.toList.getLast? ≠ some '\r' := by
  obtain ⟨hne, htrim, hfeed⟩ := note_rootHash
  simp only [plusLines, List.forall_mem_cons]
  exact ⟨by decide, by decide, ⟨hne, hfeed, getLast?_ne_return htrim⟩,
    by decide, fun l hl => nomatch hl⟩

/-- A note whose size is written as `+5` is parsed with the size 5. -/
theorem fromText_plusText : Checkpoint.fromText codec plusText =
    .ok { note with signedNoteText := joinLines plusLines } := by
  refine Checkpoint.fromText_of_lines (c := { note with signedNoteText := joinLines plusLines })
    lawfulBase64_codec base64Alphabet_codec plusLines_spec (by decide) (by decide)
    (by decide) ?_ (by decide) wellFormed_note.signatures_ne_nil
    wellFormed_note.signatures rfl
  rw [note_rootHash.2.1]
  exact lawfulBase64_codec.decode_encode _

/-- The canonical text of the checkpoint. The checkpoint is the one with two signatures. -/
theorem toSignedNoteBody_eq_signedData_iff_note :
    Checkpoint.fromText codec (note.toText codec) =
        .ok { note with signedNoteText := note.toSignedNoteBody codec } ∧
      (utf8Bytes (Checkpoint.toSignedNoteBody codec
          { note with signedNoteText := note.toSignedNoteBody codec }) =
        Checkpoint.signedData { note with signedNoteText := note.toSignedNoteBody codec } ↔
        Checkpoint.Canonical (note.toText codec)) := by
  have hparsed := Checkpoint.fromText_wellFormed lawfulBase64_codec base64Alphabet_codec
    wellFormed_note
  exact ⟨hparsed, Checkpoint.toSignedNoteBody_eq_signedData_iff lawfulBase64_codec
    strictBase64_codec hparsed⟩

/-- The size of an accepted checkpoint is written back without its plus sign. The signatures are
over the text with the sign, which the written body does not have. -/
theorem toSignedNoteBody_ne_signedData :
    ¬ ∀ (C : Codec), C.LawfulBase64 → C.StrictBase64 → ∀ (text : String) (c : Checkpoint),
      Checkpoint.fromText C text = .ok c → utf8Bytes (c.toSignedNoteBody C) = c.signedData := by
  intro hall
  have heq := utf8Bytes_injective
    (hall codec lawfulBase64_codec strictBase64_codec plusText _ fromText_plusText)
  rw [Checkpoint.toSignedNoteBody_eq] at heq
  have hlines := joinLines_inj (fun l hl => (Checkpoint.bodyLines_spec lawfulBase64_codec
    base64Alphabet_codec wellFormed_note l hl).2.2) (fun l hl => (plusLines_spec l hl).2.1) heq
  have hsize : toString note.treeSize = "+5" := (List.cons.inj (List.cons.inj hlines).2).1
  exact absurd hsize (by decide)

end Sigstore.Verify.Sample
