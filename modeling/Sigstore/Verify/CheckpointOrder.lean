import Sigstore.Reordering
import Sigstore.Types.CheckpointText
import Sigstore.Verify.Position

/-!
# The order of a checkpoint's signatures

The first signature line of a checkpoint with a log key of its hint decides, under the first such
key. Hints are not unique: the verdict is the same for every order of the lines and of the logs
exactly where all lines and keys of one hint verify, or none do
(`verifyCheckpoint_orderFree_iff`).
-/

namespace Sigstore.Verify

open Checks Types TrustRoot Crypto Reordering

/-- A checkpoint with its signature lines in another order. What follows a second blank line is not
read. -/
def Reorders (envelope envelope' : String) : Prop :=
  ∃ body sigs sigs' rest rest', splitBlankLine envelope.toList = body :: sigs :: rest ∧
    splitBlankLine envelope'.toList = body :: sigs' :: rest' ∧
    (lines (String.ofList sigs')).Perm (lines (String.ofList sigs))

/-- A signature and a log key have the same hint. -/
def sameHint (sig : CheckpointSignature) (key : KeyHint × Bytes) : Bool := sig.keyId = key.1

section
variable (E : Env) (root : TrustedRoot)

/-- A log key verifies a signature. -/
def keyVerifies (message : Bytes) (sig : CheckpointSignature) (key : KeyHint × Bytes) : Bool :=
  (verifySignatureAuto E.primitives key.2 sig.signature message).isOk

/-- A checkpoint is accepted for every order of its signature lines and of the logs, or for none. -/
def CheckpointOrderFree (envelope : String) (proof : InclusionProof) : Prop :=
  ∀ envelope' tlogs', Reorders envelope envelope' → tlogs'.Perm root.tlogs →
    (verifyCheckpoint E { root with tlogs := tlogs' } envelope' proof).isOk =
      (verifyCheckpoint E root envelope proof).isOk

/-- The signatures of a checkpoint all verify under all log keys of their hints, or none does under
any. -/
def HintsAgree (checkpoint : Checkpoint) : Prop :=
  ∀ keys, root.rekorKeysWithHints E.time E.codec = .ok keys →
    Uniform sameHint (keyVerifies E checkpoint.signedData) checkpoint.signatures keys

end

/-! ## What is collected of lines and logs -/

section
variable {C : Codec} {T : Jiff}

/-- The signature of a line, if it is not blank. -/
def lineSignature (C : Codec) (line : String) : Except Types.Error (List CheckpointSignature) :=
  if trim line = "" then .ok [] else (Checkpoint.parseSignature C (trim line)).map fun sig => [sig]

/-- The signatures of a checkpoint are collected line by line. -/
theorem parseSignatures_eq_collect (ls : List String) :
    Checkpoint.parseSignatures C ls = collect (lineSignature C) ls := by
  induction ls with
  | nil => rfl
  | cons line ls ih =>
    rw [Checkpoint.parseSignatures, collect, ← ih, lineSignature]
    split
    · cases Checkpoint.parseSignatures C ls <;> rfl
    · cases Checkpoint.parseSignature C (trim line) <;> rfl

/-- A line has at most one signature. -/
theorem length_lineSignature (line : String) (sigs : List CheckpointSignature)
    (h : lineSignature C line = .ok sigs) : sigs.length ≤ 1 := by
  unfold lineSignature at h
  split at h
  · cases h
    exact Nat.zero_le 1
  · obtain ⟨sig, -, rfl⟩ := map_eq_ok.1 h
    exact Nat.le_refl 1

/-- What the loop over instances collects of one. -/
def usableItems {α β : Type} (T : Jiff) (validFor : α → Option ValidityPeriod)
    (f : α → Except TrustRoot.Error (List β)) (a : α) : Except TrustRoot.Error (List β) := do
  let usable ← usableForVerification T (validFor a)
  if usable then f a else .ok []

/-- What the loop over the instances collects is collected instance by instance. -/
theorem collectUsable_eq_collect {α β : Type} (validFor : α → Option ValidityPeriod)
    (f : α → Except TrustRoot.Error (List β)) (l : List α) :
    collectUsable T validFor f l = collect (usableItems T validFor f) l := by
  induction l with
  | nil => rfl
  | cons a l ih =>
    rw [collectUsable, collect, ← ih, usableItems]
    cases usableForVerification T (validFor a) <;> rfl

/-- An instance of one item at most has as many where it is usable, and none otherwise. -/
theorem length_usableItems {α β : Type} {validFor : α → Option ValidityPeriod}
    {f : α → Except TrustRoot.Error (List β)}
    (hf : ∀ a items, f a = .ok items → items.length ≤ 1) (a : α) (items : List β)
    (h : usableItems T validFor f a = .ok items) : items.length ≤ 1 := by
  simp only [usableItems, bind_eq_ok] at h
  obtain ⟨usable, -, h⟩ := h
  cases usable with
  | true => exact hf a items h
  | false =>
    cases h
    exact Nat.zero_le 1

/-- The log keys are collected log by log, at most one of each. -/
theorem rekorKeysWithHints_eq_collect (T : Jiff) (C : Codec) :
    ∃ f : TransparencyLog → Except TrustRoot.Error (List (KeyHint × Bytes)),
      (∀ tlog items, f tlog = .ok items → items.length ≤ 1) ∧
      ∀ root : TrustedRoot, root.rekorKeysWithHints T C = collect f root.tlogs := by
  refine ⟨_, length_usableItems fun tlog items h => ?_,
    fun root => collectUsable_eq_collect _ _ root.tlogs⟩
  simp only [bind_eq_ok] at h
  obtain ⟨keyId, -, h⟩ := h
  split at h <;> cases h <;> simp

/-- Reordered logs have the same keys in another order. -/
theorem rekorKeysWithHints_perm (root : TrustedRoot) {tlogs' : List TransparencyLog}
    (hperm : tlogs'.Perm root.tlogs) {keys : List (KeyHint × Bytes)}
    (h : root.rekorKeysWithHints T C = .ok keys) :
    ∃ keys', { root with tlogs := tlogs' }.rekorKeysWithHints T C = .ok keys' ∧
      keys'.Perm keys := by
  obtain ⟨f, -, hcollect⟩ := rekorKeysWithHints_eq_collect T C
  rw [hcollect] at h ⊢
  exact collect_perm hperm h

/-- Every order of the log keys is that of some order of the logs. -/
theorem exists_perm_rekorKeysWithHints {root : TrustedRoot} {keys keys' : List (KeyHint × Bytes)}
    (h : root.rekorKeysWithHints T C = .ok keys) (hperm : keys'.Perm keys) :
    ∃ tlogs', tlogs'.Perm root.tlogs ∧
      { root with tlogs := tlogs' }.rekorKeysWithHints T C = .ok keys' := by
  obtain ⟨f, hone, hcollect⟩ := rekorKeysWithHints_eq_collect T C
  rw [hcollect] at h
  obtain ⟨tlogs', hp, htlogs'⟩ := exists_perm_collect hone h hperm
  exact ⟨tlogs', hp, (hcollect _).trans htlogs'⟩

/-! ## Reordered checkpoints -/

/-- The signatures of a checkpoint are those of its signature lines, and nothing else of it is. The
two blocks are parsed apart, so that other lines for the second one change the signatures and
nothing else. -/
theorem fromParts_eq_ok {body sigs : String} (sigs' : String) {checkpoint : Checkpoint}
    (h : Checkpoint.fromParts C body sigs = .ok checkpoint) :
    collect (lineSignature C) (lines sigs) = .ok checkpoint.signatures ∧
      checkpoint.signatures ≠ [] ∧
      ∀ signatures, collect (lineSignature C) (lines sigs') = .ok signatures → signatures ≠ [] →
        Checkpoint.fromParts C body sigs' =
          .ok { checkpoint with signatures := signatures } := by
  obtain ⟨origin, size, root, rest, hbody, hne, hsize, hroot, hsigs, hsome, horigin, hother,
    htext⟩ := Checkpoint.fromParts_eq_ok_iff.1 h
  rw [parseSignatures_eq_collect] at hsigs
  refine ⟨hsigs, hsome, fun signatures hsignatures hsome' => ?_⟩
  rw [← parseSignatures_eq_collect] at hsignatures
  exact Checkpoint.fromParts_eq_ok_iff.2 ⟨origin, size, root, rest, hbody, hne, hsize, hroot,
    hsignatures, hsome', horigin, hother, htext⟩

/-- A reordered checkpoint has the same signatures in another order. -/
theorem fromText_reorders {envelope envelope' : String} {checkpoint : Checkpoint}
    (h : Checkpoint.fromText C envelope = .ok checkpoint) (hr : Reorders envelope envelope') :
    ∃ signatures, signatures.Perm checkpoint.signatures ∧
      Checkpoint.fromText C envelope' = .ok { checkpoint with signatures := signatures } := by
  obtain ⟨body, sigs, sigs', rest, rest', hsplit, hsplit', hlines⟩ := hr
  rw [Checkpoint.fromText_of_split hsplit] at h
  rw [Checkpoint.fromText_of_split hsplit']
  obtain ⟨hsigs, hsome, hreplace⟩ := fromParts_eq_ok (String.ofList sigs') h
  obtain ⟨signatures, hsignatures, hp⟩ := collect_perm hlines hsigs
  have hsome' : signatures ≠ [] := fun hnil => hsome (List.nil_perm.1 (hnil ▸ hp))
  exact ⟨signatures, hp, hreplace signatures hsignatures hsome'⟩

/-- Every order of the signatures is that of a reordered checkpoint. The lines are those of the text
in the new order, so that a reordered list of signatures is one of a text that can be received. -/
theorem exists_reorders {envelope : String} {checkpoint : Checkpoint}
    (h : Checkpoint.fromText C envelope = .ok checkpoint) {signatures : List CheckpointSignature}
    (hperm : signatures.Perm checkpoint.signatures) :
    ∃ envelope', Reorders envelope envelope' ∧
      Checkpoint.fromText C envelope' = .ok { checkpoint with signatures := signatures } := by
  obtain ⟨body, sigs, rest, hsplit, h⟩ := Checkpoint.exists_split_of_fromText h
  obtain ⟨hsigs, hsome, -⟩ := fromParts_eq_ok "" h
  obtain ⟨ls, hls, hcollect⟩ := exists_perm_collect length_lineSignature hsigs hperm
  have hfeed : ∀ l ∈ ls, '\n' ∉ l.toList := fun l hl => mem_lines (hls.subset hl)
  obtain ⟨text, hlines, htext⟩ :
      ∃ text : List Char, lines (String.ofList text) = ls ∧ splitBlankLine text = [text] := by
    refine ⟨(unlines ls).toList, ?_, splitBlankLine_unlines hfeed⟩
    rw [String.ofList_toList, lines_unlines hfeed]
  have hsplit' : splitBlankLine (String.ofList (body ++ '\n' :: '\n' :: text)).toList =
      [body, text] := by
    rw [String.toList_ofList, splitBlankLine_first hsplit, htext]
  have hsome' : signatures ≠ [] := fun hnil => hsome (List.nil_perm.1 (hnil ▸ hperm))
  obtain ⟨-, -, hreplace⟩ := fromParts_eq_ok (String.ofList text) h
  rw [← hlines] at hls hcollect
  refine ⟨_, ⟨body, sigs, text, rest, [], hsplit, hsplit', hls⟩, ?_⟩
  rw [Checkpoint.fromText_of_split hsplit']
  exact hreplace signatures hcollect hsome'

end

/-! ## The verdict -/

section
variable {E : Env} {root : TrustedRoot}

/-- A key verifies a signature where `verify_signature_auto` accepts it. -/
theorem keyVerifies_eq_true {message : Bytes} {sig : CheckpointSignature}
    {key : KeyHint × Bytes} : keyVerifies E message sig key = true ↔
      verifySignatureAuto E.primitives key.2 sig.signature message = .ok () := by
  rw [keyVerifies, isOk_iff]
  exact ⟨fun ⟨(), h⟩ => h, fun h => ⟨(), h⟩⟩

/-- The loops of `verify_checkpoint` take the verdict of the first signature and key of one hint.
The source returns the failure of that key at once, and does not go on to the next. -/
theorem verifyCheckpointSignature_isOk (keys : List (KeyHint × Bytes)) (message : Bytes)
    (sigs : List CheckpointSignature) :
    (verifyCheckpointSignature E keys message sigs).isOk =
      verdict sameHint (keyVerifies E message) sigs keys := by
  induction sigs with
  | nil => rfl
  | cons sig sigs ih =>
    have hfind : (keys.find? fun key => sig.keyId = key.1) = keys.find? (sameHint sig) := rfl
    rw [verifyCheckpointSignature, hfind, verdict, firstMatch, List.findSome?_cons]
    cases keys.find? (sameHint sig) with
    | none => exact ih
    | some key =>
      show (Except.mapError _ _).isOk = keyVerifies E message sig key
      unfold keyVerifies
      cases verifySignatureAuto E.primitives key.2 sig.signature message <;> rfl

/-- A checkpoint of the proof's root hash is judged by its signatures and the log keys. What remains
is a loop over two lists, to which the lemmas on reordered loops apply. -/
theorem verifyCheckpoint_eq {envelope : String} {proof : InclusionProof} {checkpoint : Checkpoint}
    (hparse : Checkpoint.fromText E.codec envelope = .ok checkpoint)
    (hroot : checkpoint.rootHash = proof.rootHash) :
    verifyCheckpoint E root envelope proof = (do
      let keys ← (root.rekorKeysWithHints E.time E.codec).mapError fun e =>
        .verification s!"Failed to get Rekor keys: {e.display}"
      verifyCheckpointSignature E keys checkpoint.signedData checkpoint.signatures) := by
  have hkept : ∀ e : Error, rejectIf (checkpoint.rootHash ≠ proof.rootHash) e = .ok () :=
    fun e => if_neg (not_not.2 hroot)
  simp only [verifyCheckpoint, hparse]
  show (do rejectIf (checkpoint.rootHash ≠ proof.rootHash) _; _) = _
  rw [hkept]
  rfl

/-- A checkpoint of the proof's root hash is accepted where the first signature and key of one hint
verify. -/
theorem verifyCheckpoint_isOk {envelope : String} {proof : InclusionProof}
    {checkpoint : Checkpoint} {keys : List (KeyHint × Bytes)}
    (hparse : Checkpoint.fromText E.codec envelope = .ok checkpoint)
    (hroot : checkpoint.rootHash = proof.rootHash)
    (hkeys : root.rekorKeysWithHints E.time E.codec = .ok keys) :
    (verifyCheckpoint E root envelope proof).isOk =
      verdict sameHint (keyVerifies E checkpoint.signedData) checkpoint.signatures keys := by
  rw [verifyCheckpoint_eq hparse hroot, hkeys, ← verifyCheckpointSignature_isOk]
  rfl

/-- Without the log keys no checkpoint is accepted. -/
theorem verifyCheckpoint_isOk_of_error {envelope : String} {proof : InclusionProof}
    {checkpoint : Checkpoint} {e : TrustRoot.Error}
    (hparse : Checkpoint.fromText E.codec envelope = .ok checkpoint)
    (hroot : checkpoint.rootHash = proof.rootHash)
    (hkeys : root.rekorKeysWithHints E.time E.codec = .error e) :
    (verifyCheckpoint E root envelope proof).isOk = false := by
  rw [verifyCheckpoint_eq hparse hroot, hkeys]
  rfl

/-- Where the log keys cannot be read, they cannot in any order of the logs. -/
theorem rekorKeysWithHints_error {tlogs' : List TransparencyLog} {e : TrustRoot.Error}
    (hperm : tlogs'.Perm root.tlogs) (h : root.rekorKeysWithHints E.time E.codec = .error e) :
    ∃ e', { root with tlogs := tlogs' }.rekorKeysWithHints E.time E.codec = .error e' := by
  cases hkeys : { root with tlogs := tlogs' }.rekorKeysWithHints E.time E.codec with
  | error e' => exact ⟨e', rfl⟩
  | ok keys =>
    obtain ⟨keys', hkeys', -⟩ :=
      rekorKeysWithHints_perm { root with tlogs := tlogs' } hperm.symm hkeys
    cases h.symm.trans hkeys'

/-- Reordering lines and logs reorders what the verdict is taken of. It carries the question from
texts and trust roots to the two lists that the loops go through. -/
theorem checkpointOrderFree_iff_orderFree {envelope : String} {proof : InclusionProof}
    {checkpoint : Checkpoint} {keys : List (KeyHint × Bytes)}
    (hparse : Checkpoint.fromText E.codec envelope = .ok checkpoint)
    (hroot : checkpoint.rootHash = proof.rootHash)
    (hkeys : root.rekorKeysWithHints E.time E.codec = .ok keys) :
    CheckpointOrderFree E root envelope proof ↔
      OrderFree sameHint (keyVerifies E checkpoint.signedData) checkpoint.signatures keys := by
  constructor
  · intro h sigs' keys' hsigs hperm
    obtain ⟨envelope', hreorders, hparse'⟩ := exists_reorders hparse hsigs
    obtain ⟨tlogs', htlogs', hkeys'⟩ := exists_perm_rekorKeysWithHints hkeys hperm
    have hverdict := h envelope' tlogs' hreorders htlogs'
    rwa [verifyCheckpoint_isOk hparse hroot hkeys, verifyCheckpoint_isOk hparse' hroot hkeys']
      at hverdict
  · intro h envelope' tlogs' hreorders htlogs'
    obtain ⟨sigs', hsigs, hparse'⟩ := fromText_reorders hparse hreorders
    obtain ⟨keys', hkeys', hperm⟩ := rekorKeysWithHints_perm root htlogs' hkeys
    rw [verifyCheckpoint_isOk hparse hroot hkeys, verifyCheckpoint_isOk hparse' hroot hkeys']
    exact h sigs' keys' hsigs hperm

/-- **A checkpoint's verdict depends on the order unless all lines and keys of one hint have the
same.** -/
theorem verifyCheckpoint_orderFree_iff {envelope : String} {proof : InclusionProof}
    {checkpoint : Checkpoint}
    (hparse : Checkpoint.fromText E.codec envelope = .ok checkpoint)
    (hroot : checkpoint.rootHash = proof.rootHash) :
    CheckpointOrderFree E root envelope proof ↔ HintsAgree E root checkpoint := by
  cases hkeys : root.rekorKeysWithHints E.time E.codec with
  | error e =>
    constructor
    · intro _ keys hkeys'
      cases hkeys.symm.trans hkeys'
    · intro _ envelope' tlogs' hreorders htlogs'
      obtain ⟨sigs', -, hparse'⟩ := fromText_reorders hparse hreorders
      obtain ⟨e', hkeys'⟩ := rekorKeysWithHints_error htlogs' hkeys
      rw [verifyCheckpoint_isOk_of_error hparse hroot hkeys,
        verifyCheckpoint_isOk_of_error hparse' hroot hkeys']
  | ok keys =>
    rw [checkpointOrderFree_iff_orderFree hparse hroot hkeys, verdict_orderFree_iff]
    constructor
    · intro h keys' hkeys'
      cases hkeys.symm.trans hkeys'
      exact h
    · intro h
      exact h keys hkeys

end

namespace Sample

/-- The signature line of the tree head's `checkpoint`. -/
def signedLine : String := "— rekor.example LfkohQWM\n"

/-- A line of another key with the same hint. -/
def foreignLine : String := "— rekor.example LfkohQAA\n"

/-- The tree head with both lines, the one of the log's key first. -/
def signedFirst : String := treeHead ++ "\n" ++ (signedLine ++ foreignLine)

/-- The tree head with the same lines in the other order. -/
def signedLast : String := treeHead ++ "\n" ++ (foreignLine ++ signedLine)

/-- A tree head with signatures. -/
def withSignatures (signatures : List Bytes) : Checkpoint :=
  { parsedCheckpoint with
    signatures := signatures.map fun signature =>
      ⟨"rekor.example", ⟨[0x2d, 0xf9, 0x28, 0x85], rfl⟩, signature⟩ }

/-- The body of the tree head, before its last line feed. -/
def noteBody : String := "rekor.example\n2\n" ++ text64 Merkle.Sample.nodeAB.bytes

theorem toList_treeHead : treeHead.toList = noteBody.toList ++ ['\n'] := String.toList_append

/-- The tree head is split from its signatures. -/
theorem splitBlankLine_treeHead (signatures : String) :
    splitBlankLine (treeHead ++ "\n" ++ signatures).toList =
      noteBody.toList :: splitBlankLine signatures.toList := by
  have hsplit : splitBlankLine (noteBody.toList ++ ['\n', '\n']) = [noteBody.toList, []] := by
    decide
  have htext : (treeHead ++ "\n").toList = treeHead.toList ++ ['\n'] := String.toList_append
  rw [String.toList_append, htext, toList_treeHead, List.append_assoc, List.append_assoc]
  exact splitBlankLine_first hsplit signatures.toList

/-- The lines of the two orders. -/
theorem splitBlankLine_lines :
    splitBlankLine (signedLine ++ foreignLine).toList = [(signedLine ++ foreignLine).toList] ∧
    splitBlankLine (foreignLine ++ signedLine).toList = [(foreignLine ++ signedLine).toList] ∧
    (lines (foreignLine ++ signedLine)).Perm (lines (signedLine ++ foreignLine)) := by
  decide

/-- The two texts differ in the order of their signature lines alone. -/
theorem reorders_signedLast : Reorders signedFirst signedLast := by
  obtain ⟨hfirst, hlast, hlines⟩ := splitBlankLine_lines
  refine ⟨noteBody.toList, (signedLine ++ foreignLine).toList, (foreignLine ++ signedLine).toList,
    [], [], ?_, ?_, ?_⟩
  · rw [signedFirst, splitBlankLine_treeHead, hfirst]
  · rw [signedLast, splitBlankLine_treeHead, hlast]
  · rwa [String.ofList_toList, String.ofList_toList]

/-- The hint of the log's key. -/
def hint : KeyHint := ⟨[0x2d, 0xf9, 0x28, 0x85], rfl⟩

/-- The two lines are those of signatures of the log's hint. -/
theorem headLine_lines : headLine (hint, [5, 0x8c]) = signedLine ∧
    headLine (hint, [0, 0]) = foreignLine := by
  decide +kernel

/-- The text of a tree head with two signature lines is parsed as the tree head with the two
signatures, in the order of the lines. -/
theorem fromText_twoSigned {first second : KeyHint × Bytes} (hfirst : first.2 ≠ [])
    (hsecond : second.2 ≠ []) :
    Checkpoint.fromText env.codec (treeHead ++ "\n" ++ (headLine first ++ headLine second)) =
      .ok (signedHead 2 Merkle.Sample.nodeAB [first, second] treeHead) := by
  have hjoin : String.join ([first, second].map headLine) =
      headLine first ++ headLine second := by
    rw [List.map_cons, List.map_singleton, String.join_cons, String.join_cons, String.join_nil,
      String.append_empty]
  rw [← hjoin]
  exact fromText_signedHead (List.cons_ne_nil _ _) (by simp [hfirst, hsecond]) treeHead_eq

/-- The tree head with the log's line first is parsed. -/
theorem signedFirst_parsed :
    Checkpoint.fromText env.codec signedFirst = .ok (withSignatures [[5, 0x8c], [0, 0]]) := by
  rw [signedFirst, ← headLine_lines.1, ← headLine_lines.2]
  exact fromText_twoSigned (List.cons_ne_nil _ _) (List.cons_ne_nil _ _)

/-- The tree head with the log's line last is parsed. -/
theorem signedLast_parsed :
    Checkpoint.fromText env.codec signedLast = .ok (withSignatures [[0, 0], [5, 0x8c]]) := by
  rw [signedLast, ← headLine_lines.1, ← headLine_lines.2]
  exact fromText_twoSigned (List.cons_ne_nil _ _) (List.cons_ne_nil _ _)

/-- The signed line verifies under the log's key. The foreign line does not, and has its hint. -/
theorem keyVerifies_lines :
    sign 5 (utf8Bytes treeHead) = [5, 0x8c] ∧
    keyVerifies env (withSignatures [[5, 0x8c], [0, 0]]).signedData
      ⟨"rekor.example", hint, [5, 0x8c]⟩ (hint, keyDer 5) = true ∧
    keyVerifies env (withSignatures [[0, 0], [5, 0x8c]]).signedData
      ⟨"rekor.example", hint, [0, 0]⟩ (hint, keyDer 5) = false := by
  decide

/-- With the log's line first the checkpoint is accepted. -/
theorem verifyCheckpoint_signedFirst :
    (verifyCheckpoint env root signedFirst (inclusion 1 2)).isOk = true := by
  rw [verifyCheckpoint_isOk signedFirst_parsed rfl rekorKeysWithHints_root]
  exact (verdict_cons_cons rfl).trans keyVerifies_lines.2.1

/-- With the log's line last the checkpoint is rejected. -/
theorem verifyCheckpoint_signedLast :
    (verifyCheckpoint env root signedLast (inclusion 1 2)).isOk = false := by
  rw [verifyCheckpoint_isOk signedLast_parsed rfl rekorKeysWithHints_root]
  exact (verdict_cons_cons rfl).trans keyVerifies_lines.2.2

/-- The deployment with a second log, whose key has another hint. -/
def twoLogs : TrustedRoot :=
  { root with tlogs := root.tlogs ++
      [⟨⟨keyDer 6, validFor⟩, ⟨text64 (sha256 (keyDer 6)).bytes⟩⟩] }

/-- The hint of the second log's key. -/
def otherHint : KeyHint := ⟨[0x1d, 0x26, 0x56, 0xdf], rfl⟩

/-- The tree head, signed by both logs. -/
def cosigned : String :=
  treeHead ++ "\n" ++ (headLine (hint, [5, 0x8c]) ++ headLine (otherHint, [6, 0x8c]))

/-- The tree head with the signatures of both logs, parsed. -/
def cosignedHead : Checkpoint :=
  signedHead 2 Merkle.Sample.nodeAB [(hint, [5, 0x8c]), (otherHint, [6, 0x8c])] treeHead

theorem cosigned_parsed : Checkpoint.fromText env.codec cosigned = .ok cosignedHead :=
  fromText_twoSigned (List.cons_ne_nil _ _) (List.cons_ne_nil _ _)

/-- The keys of the two logs have different hints. -/
theorem rekorKeysWithHints_twoLogs : twoLogs.rekorKeysWithHints env.time env.codec =
    .ok [(hint, keyDer 5), (otherHint, keyDer 6)] := by
  decide

/-- Each signature of the tree head verifies under the key of its hint. -/
theorem keyVerifies_cosigned :
    keyVerifies env cosignedHead.signedData ⟨"rekor.example", hint, [5, 0x8c]⟩ (hint, keyDer 5) =
      true ∧
    keyVerifies env cosignedHead.signedData ⟨"rekor.example", otherHint, [6, 0x8c]⟩
      (otherHint, keyDer 6) = true := by
  decide

/-- The logs' signatures have different hints, and each verifies under the key of its own. The hints
are evaluated, and each signature meets one key only. -/
theorem hintsAgree_cosigned : HintsAgree env twoLogs cosignedHead := by
  obtain ⟨hfirst, hsecond⟩ := keyVerifies_cosigned
  intro keys hkeys
  cases rekorKeysWithHints_twoLogs.symm.trans hkeys
  refine .inl fun sig hsig key hkey hsame => ?_
  simp only [cosignedHead, signedHead, List.map_cons, List.map_nil, List.mem_cons,
    List.not_mem_nil, or_false] at hsig hkey
  rcases hsig with rfl | rfl <;> rcases hkey with rfl | rfl
  · exact hfirst
  · exact absurd hsame (by decide)
  · exact absurd hsame (by decide)
  · exact hsecond

end Sample

/-- The verdict on a checkpoint that two logs have signed does not depend on the order of the lines
or of the logs. -/
theorem verifyCheckpoint_orderFree_signed : CheckpointOrderFree Sample.env Sample.twoLogs
    Sample.cosigned (Sample.inclusion 1 2) :=
  (verifyCheckpoint_orderFree_iff Sample.cosigned_parsed rfl).2 Sample.hintsAgree_cosigned

/-- A checkpoint that a log key has signed is accepted or not with the order of its lines, where
another line has the hint of that key. -/
theorem verifyCheckpoint_orderFree_fails :
    Checkpoint.fromText Sample.env.codec Sample.signedFirst =
      .ok (Sample.withSignatures [[5, 0x8c], [0, 0]]) ∧
    (Sample.withSignatures [[5, 0x8c], [0, 0]]).rootHash = (Sample.inclusion 1 2).rootHash ∧
    (∃ sig ∈ (Sample.withSignatures [[5, 0x8c], [0, 0]]).signatures, ∃ publicKey,
      IsRekorKey Sample.env Sample.root sig.keyId publicKey ∧
      verifySignatureAuto Sample.env.primitives publicKey sig.signature
        (Sample.withSignatures [[5, 0x8c], [0, 0]]).signedData = .ok ()) ∧
    Reorders Sample.signedFirst Sample.signedLast ∧
    (verifyCheckpoint Sample.env Sample.root Sample.signedFirst (Sample.inclusion 1 2)).isOk =
      true ∧
    (verifyCheckpoint Sample.env Sample.root Sample.signedLast (Sample.inclusion 1 2)).isOk =
      false ∧
    ¬ CheckpointOrderFree Sample.env Sample.root Sample.signedFirst (Sample.inclusion 1 2) := by
  refine ⟨Sample.signedFirst_parsed, rfl, ?_, Sample.reorders_signedLast,
    Sample.verifyCheckpoint_signedFirst, Sample.verifyCheckpoint_signedLast, fun h => ?_⟩
  · exact ⟨_, List.mem_cons_self, Sample.keyDer 5,
      ⟨_, Sample.rekorKeysWithHints_root, List.mem_cons_self⟩,
      keyVerifies_eq_true.1 Sample.keyVerifies_lines.2.1⟩
  · have hsame := h Sample.signedLast Sample.root.tlogs Sample.reorders_signedLast (.refl _)
    rw [Sample.verifyCheckpoint_signedFirst] at hsame
    cases hsame.symm.trans Sample.verifyCheckpoint_signedLast

end Sigstore.Verify
