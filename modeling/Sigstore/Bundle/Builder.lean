import Sigstore.Bundle.RoundTrip
import Sigstore.Rekor.Entry
import Sigstore.Types.CheckpointText

/-!
# Bundle entries of new log entries

A signer turns the log's answer into the entry of a bundle (`builder.rs`). The answer under the
second version of the API goes through an entry of the first, from base64 and strings to
hexadecimal and back. What does not parse on the way is replaced or dropped, and exactly what parses
is carried (`carries_iff`).
-/

namespace Sigstore.Bundle

open Checks Types Rekor

/-- Helper to create a transparency log entry. -/
structure TlogEntryBuilder where
  logIndex : Int64
  logId : String
  kind : String
  kindVersion : String
  integratedTime : Int64
  canonicalizedBody : Bytes
  inclusionPromise : Option InclusionPromise
  inclusionProof : Option InclusionProof
  deriving DecidableEq

namespace TlogEntryBuilder

variable (C : Codec)

/-- The proof of a bundle from that of a V1 entry: a root hash that does not parse becomes zeros,
and other hashes that do not parse are dropped. -/
def proofOf (proof : RekorInclusionProof) : InclusionProof :=
  { logIndex := ⟨proof.logIndex⟩
    rootHash := (C.sha256FromHex proof.rootHash).toOption.getD
      ⟨List.replicate 32 0, List.length_replicate⟩
    treeSize := proof.treeSize
    hashes := proof.hashes.filterMap fun h => (C.sha256FromHex h).toOption
    checkpoint := ⟨proof.checkpoint⟩ }

/-- Create a tlog entry builder from a Rekor LogEntry response. -/
def fromLogEntry (entry : LogEntry) (kind version : String) : TlogEntryBuilder :=
  { logIndex := entry.logIndex
    logId := (entry.logId.toBase64 C).toOption.getD entry.logId.text
    kind := kind
    kindVersion := version
    integratedTime := entry.integratedTime
    canonicalizedBody := entry.body
    inclusionPromise := entry.verification.bind fun v =>
      v.signedEntryTimestamp.map InclusionPromise.mk
    inclusionProof := entry.verification.bind fun v => v.inclusionProof.map (proofOf C) }

/-- Build the transparency log entry. -/
def build (b : TlogEntryBuilder) : TransparencyLogEntry :=
  { logIndex := ⟨b.logIndex⟩
    logId := ⟨b.logId⟩
    kindVersion := ⟨b.kind, b.kindVersion⟩
    integratedTime := b.integratedTime
    inclusionPromise := b.inclusionPromise
    inclusionProof := b.inclusionProof
    canonicalizedBody := b.canonicalizedBody }

end TlogEntryBuilder

/-! ## The promise -/

section
variable (C : Codec)

/-- The response is a success whose body is a V2 entry. -/
def Parses (response : Except String Response) (entryV2 : LogEntryV2) : Prop :=
  ∃ r text, response = .ok r ∧ r.isSuccess = true ∧ r.text = .ok text ∧
    C.fromJson (LogEntryV2.de C) text = .ok entryV2

/-- An inclusion proof has what the V2 proof has, with numbers for their texts. -/
structure CarriesProofV2 (p : InclusionProofV2) (q : InclusionProof) : Prop where
  logIndex : parseI64 p.logIndex = some q.logIndex.value
  rootHash : q.rootHash = p.rootHash
  treeSize : parseI64 p.treeSize = some q.treeSize
  hashes : q.hashes = p.hashes
  checkpoint : q.checkpoint = p.checkpoint

/-- An entry has what the V2 entry has, with numbers for their texts. -/
structure CarriesV2 (entryV2 : LogEntryV2) (entry : TransparencyLogEntry) : Prop where
  logIndex : parseI64 entryV2.logIndex = some entry.logIndex.value
  logId : entry.logId = entryV2.logId
  integratedTime : parseI64 entryV2.integratedTime = some entry.integratedTime
  inclusionPromise : entry.inclusionPromise = entryV2.inclusionPromise
  inclusionProof : Option.Rel CarriesProofV2 entryV2.inclusionProof entry.inclusionProof
  canonicalizedBody : entry.canonicalizedBody = entryV2.canonicalizedBody

/-- An inclusion proof has what the V1 proof has, with hashes for their hexadecimal texts. -/
structure CarriesProofV1 (p : RekorInclusionProof) (q : InclusionProof) : Prop where
  logIndex : q.logIndex.value = p.logIndex
  rootHash : C.sha256FromHex p.rootHash = .ok q.rootHash
  treeSize : q.treeSize = p.treeSize
  hashes : List.Forall₂ (fun h hash => C.sha256FromHex h = .ok hash) p.hashes q.hashes
  checkpoint : q.checkpoint.envelope = p.checkpoint

/-- A log identifier in hexadecimal is carried in base64, and any other text as it is. -/
def CarriesLogId (id : HexLogId) (logId : LogId) : Prop :=
  (∀ bytes, hexDecode id.text = some bytes → decodeLogKeyId C logId.keyId = .ok bytes) ∧
    (hexDecode id.text = none → logId.keyId = id.text)

/-- An entry has what the V1 entry has. -/
structure CarriesV1 (e : LogEntry) (entry : TransparencyLogEntry) : Prop where
  logIndex : entry.logIndex.value = e.logIndex
  logId : CarriesLogId C e.logId entry.logId
  integratedTime : entry.integratedTime = e.integratedTime
  inclusionPromise : entry.inclusionPromise.map InclusionPromise.signedEntryTimestamp =
    e.verification.bind Verification.signedEntryTimestamp
  inclusionProof : Option.Rel (CarriesProofV1 C) (e.verification.bind Verification.inclusionProof)
    entry.inclusionProof
  canonicalizedBody : entry.canonicalizedBody = e.body

/-- The texts of numbers in a V2 entry are those of numbers, and its key identifier is not read as
hexadecimal. -/
structure RegularV2 (entryV2 : LogEntryV2) : Prop where
  logIndex : (parseI64 entryV2.logIndex).isSome
  logId : entryV2.logId.keyId = "" ∨ hexDecode entryV2.logId.keyId = none
  integratedTime : (parseI64 entryV2.integratedTime).isSome
  inclusionProof : ∀ p, entryV2.inclusionProof = some p →
    (parseI64 p.logIndex).isSome ∧ (parseI64 p.treeSize).isSome

/-- A text of 32 bytes in hexadecimal. -/
def IsSha256Hex (text : String) : Prop := ∃ bytes, hexDecode text = some bytes ∧ bytes.length = 32

/-- The texts of hashes in a V1 entry are those of hashes. -/
def RegularV1 (e : LogEntry) : Prop :=
  ∀ p, e.verification.bind Verification.inclusionProof = some p →
    IsSha256Hex p.rootHash ∧ ∀ h ∈ p.hashes, IsSha256Hex h

end

/-! ## What parses on the way -/

section
variable {C : Codec}

/-- A number that parses is the one that `unwrap_or(0)` leaves, and one that does not parse is not.
-/
theorem parseI64_eq_parseOrDefault {s : String} :
    parseI64 s = some (parseOrDefault s) ↔ (parseI64 s).isSome := by
  cases h : parseI64 s <;> simp [parseOrDefault, h]

/-- A hash is read from hexadecimal where the text decodes to its bytes. -/
theorem sha256FromHex_eq_ok {s : String} {hash : Sha256Hash} :
    C.sha256FromHex s = .ok hash ↔ hexDecode s = some hash.bytes := by
  simp only [Codec.sha256FromHex, bind_eq_ok, okOr_eq_ok, Checkpoint.sha256FromSlice_eq_ok]
  constructor
  · rintro ⟨bs, hdecode, rfl⟩
    exact hdecode
  · intro h
    exact ⟨_, h, rfl⟩

/-- The texts of 32 bytes in hexadecimal are those that `Sha256Hash::from_hex` reads. -/
theorem isSha256Hex_iff {s : String} :
    IsSha256Hex s ↔ ∃ hash, C.sha256FromHex s = .ok hash := by
  simp only [sha256FromHex_eq_ok]
  constructor
  · rintro ⟨bytes, hdecode, hlength⟩
    exact ⟨⟨bytes, hlength⟩, hdecode⟩
  · rintro ⟨hash, hdecode⟩
    exact ⟨hash.bytes, hdecode, hash.length_bytes⟩

/-- A hash is read back from its own hexadecimal text. -/
theorem sha256FromHex_toHex (hash : Sha256Hash) : C.sha256FromHex hash.toHex = .ok hash :=
  sha256FromHex_eq_ok.2 (hexDecode_hexEncode hash.bytes)

/-- A text that decodes as hexadecimal has hexadecimal digits only, so no padding of base64. -/
theorem isAsciiHexdigit_of_hexPairs {l : List Char} {bs : Bytes} (h : hexPairs l = some bs) :
    ∀ c ∈ l, isAsciiHexdigit c = true := by
  fun_induction hexPairs l generalizing bs with
  | case1 => simp
  | case2 => cases h
  | case3 c d l ih =>
    simp only [Option.bind_eq_bind, Option.bind_eq_some_iff] at h
    obtain ⟨_, hc, _, hd, rest, hrest, -⟩ := h
    simp only [List.mem_cons, forall_eq_or_imp]
    exact ⟨by rw [isAsciiHexdigit, hc]; rfl, by rw [isAsciiHexdigit, hd]; rfl, ih hrest⟩

/-- Bytes that are read from hexadecimal have another text in base64, unless there are none. A text
of hexadecimal digits has twice as many characters as bytes, and one of base64 has four for three
bytes. -/
theorem base64Encode_eq_hex_iff (hC : C.LawfulBase64) {s : String} {bytes : Bytes}
    (h : hexDecode s = some bytes) : C.base64Encode bytes = s ↔ s = "" := by
  have hdigits := isAsciiHexdigit_of_hexPairs h
  have hchars := hexPairs_length h
  constructor
  · rintro rfl
    have hlength := hC.length_encode bytes
    rw [length_utf8Bytes fun c hc => utf8Size_of_isAsciiHexdigit (hdigits c hc)] at hlength
    have hthree : bytes.length % 3 = 0 := by
      by_contra hpad
      exact absurd (hdigits _ (hC.padded bytes hpad)) (by decide)
    have hempty : (C.base64Encode bytes).toList.length = 0 := by omega
    exact String.toList_eq_nil_iff.1 (List.length_eq_zero_iff.1 hempty)
  · rintro rfl
    cases h
    have hlength := hC.length_encode []
    exact String.utf8ByteSize_eq_zero_iff.1 (by simpa [utf8Bytes] using hlength)

/-! ## What is carried -/

/-- The key identifier of a V2 entry comes back from `HexLogId` unchanged unless its base64 text can
be read as hexadecimal; then its bytes are encoded a second time. -/
theorem logId_carried_iff (hC : C.LawfulBase64) (keyId : String) :
    (HexLogId.toBase64 C ⟨keyId⟩).toOption.getD keyId = keyId ↔
      keyId = "" ∨ hexDecode keyId = none := by
  cases h : hexDecode keyId with
  | none =>
    simp only [HexLogId.toBase64, HexLogId.decode, h, or_true, iff_true]
    rfl
  | some bytes =>
    simp only [HexLogId.toBase64, HexLogId.decode, h, reduceCtorEq, or_false]
    exact base64Encode_eq_hex_iff hC h

/-- A log identifier of a V1 entry is carried: its bytes where it is hexadecimal, and its text
otherwise. -/
theorem carriesLogId (hC : C.LawfulBase64) (id : HexLogId) :
    CarriesLogId C id ⟨(id.toBase64 C).toOption.getD id.text⟩ := by
  constructor
  · intro bytes h
    have hbase64 : id.toBase64 C = .ok (C.base64Encode bytes) := by
      rw [HexLogId.toBase64, HexLogId.decode, h]
      rfl
    rw [hbase64, decodeLogKeyId, mapError_eq_ok]
    exact hC.decode_encode bytes
  · intro h
    rw [HexLogId.toBase64, HexLogId.decode, h]
    rfl

/-- The hashes of a V2 proof come back from hexadecimal. -/
theorem proofOf_ofV2 (p : InclusionProofV2) :
    TlogEntryBuilder.proofOf C (.ofV2 p) =
      ⟨⟨parseOrDefault p.logIndex⟩, p.rootHash, parseOrDefault p.treeSize, p.hashes,
        p.checkpoint⟩ := by
  simp [TlogEntryBuilder.proofOf, RekorInclusionProof.ofV2, List.filterMap_map, sha256FromHex_toHex,
    Except.toOption]

/-- A V2 proof is carried exactly where its index and its size parse; its hashes always come back.
-/
theorem carriesProofV2_iff (p : InclusionProofV2) :
    CarriesProofV2 p (TlogEntryBuilder.proofOf C (.ofV2 p)) ↔
      (parseI64 p.logIndex).isSome ∧ (parseI64 p.treeSize).isSome := by
  rw [proofOf_ofV2, ← parseI64_eq_parseOrDefault, ← parseI64_eq_parseOrDefault]
  constructor
  · intro h
    exact ⟨h.logIndex, h.treeSize⟩
  · rintro ⟨hindex, hsize⟩
    exact ⟨hindex, rfl, hsize, rfl, rfl⟩

/-- A V2 entry is carried exactly where it is regular. The parts that the builder copies are equal
by definition, and each of the others is one condition of `RegularV2`. -/
theorem carriesV2_iff (hC : C.LawfulBase64) (entryV2 : LogEntryV2) (kind version : String) :
    CarriesV2 entryV2 (TlogEntryBuilder.fromLogEntry C (.ofV2 entryV2) kind version).build ↔
      RegularV2 entryV2 := by
  constructor
  · intro h
    refine ⟨parseI64_eq_parseOrDefault.1 h.logIndex, ?_, parseI64_eq_parseOrDefault.1
      h.integratedTime, ?_⟩
    · exact (logId_carried_iff hC _).1 (congrArg LogId.keyId h.logId)
    · intro p hp
      have hproof := h.inclusionProof
      simp only [TlogEntryBuilder.build, TlogEntryBuilder.fromLogEntry, LogEntry.ofV2, hp,
        Option.map_some, Option.bind_some, Option.rel_some_some] at hproof
      exact (carriesProofV2_iff p).1 hproof
  · intro h
    refine ⟨parseI64_eq_parseOrDefault.2 h.logIndex, ?_, parseI64_eq_parseOrDefault.2
      h.integratedTime, ?_, ?_, rfl⟩
    · exact congrArg LogId.mk ((logId_carried_iff hC _).2 h.logId)
    · show (entryV2.inclusionPromise.map InclusionPromise.signedEntryTimestamp).map
        InclusionPromise.mk = _
      cases entryV2.inclusionPromise <;> rfl
    · show Option.Rel CarriesProofV2 entryV2.inclusionProof
        ((entryV2.inclusionProof.map RekorInclusionProof.ofV2).map (TlogEntryBuilder.proofOf C))
      cases hp : entryV2.inclusionProof with
      | none => exact .none
      | some p => exact .some ((carriesProofV2_iff p).2 (h.inclusionProof p hp))

/-- The values that parse are those of all items in order exactly when every item parses. The list
of values is as long as that of the items only if none of them was dropped. -/
theorem forall₂_filterMap_iff {α β ε : Type} (parse : α → Except ε β) (l : List α) :
    List.Forall₂ (fun a b => parse a = .ok b) l (l.filterMap fun a => (parse a).toOption) ↔
      ∀ a ∈ l, ∃ b, parse a = .ok b := by
  induction l with
  | nil => simp
  | cons a l ih =>
    cases h : parse a with
    | ok b =>
      rw [List.filterMap_cons_some (b := b) (by rw [h]; rfl), List.forall₂_cons, ih]
      simp [h]
    | error e =>
      rw [List.filterMap_cons_none (by rw [h]; rfl)]
      constructor
      · intro hrel
        have hlength := hrel.length_eq
        have hle := List.length_filterMap_le (fun a => (parse a).toOption) l
        rw [List.length_cons] at hlength
        omega
      · intro hall
        obtain ⟨b, hb⟩ := hall a List.mem_cons_self
        rw [h] at hb
        cases hb

/-- A V1 proof is carried exactly where its root hash and all its hashes parse: a root hash that
does not parse becomes zeros, and another hash that does not parse is dropped. -/
theorem carriesProofV1_iff (p : RekorInclusionProof) :
    CarriesProofV1 C p (TlogEntryBuilder.proofOf C p) ↔
      IsSha256Hex p.rootHash ∧ ∀ h ∈ p.hashes, IsSha256Hex h := by
  simp only [isSha256Hex_iff (C := C)]
  rw [← forall₂_filterMap_iff]
  constructor
  · intro h
    exact ⟨⟨_, h.rootHash⟩, h.hashes⟩
  · rintro ⟨⟨hash, hroot⟩, hhashes⟩
    refine ⟨rfl, ?_, rfl, hhashes, rfl⟩
    rw [TlogEntryBuilder.proofOf, hroot]
    rfl

/-- A V1 entry is carried exactly where the hashes of its proof parse. The other parts are copied,
or carried whatever they are. -/
theorem carriesV1_iff (hC : C.LawfulBase64) (e : LogEntry) (kind version : String) :
    CarriesV1 C e (TlogEntryBuilder.fromLogEntry C e kind version).build ↔ RegularV1 e := by
  have hproof : (TlogEntryBuilder.fromLogEntry C e kind version).build.inclusionProof =
      (e.verification.bind Verification.inclusionProof).map (TlogEntryBuilder.proofOf C) := by
    cases hv : e.verification <;> simp [TlogEntryBuilder.fromLogEntry, TlogEntryBuilder.build, hv]
  constructor
  · intro h p hp
    have hrel := h.inclusionProof
    rw [hproof, hp] at hrel
    exact (carriesProofV1_iff p).1 (Option.rel_some_some.1 hrel)
  · intro h
    refine ⟨rfl, carriesLogId hC e.logId, rfl, ?_, ?_, rfl⟩
    · show (e.verification.bind fun v => v.signedEntryTimestamp.map InclusionPromise.mk).map _ = _
      cases hv : e.verification with
      | none => rfl
      | some v => cases hset : v.signedEntryTimestamp <;> simp [hset]
    · rw [hproof]
      cases hp : e.verification.bind Verification.inclusionProof with
      | none => exact .none
      | some p => exact .some ((carriesProofV1_iff p).2 (h p hp))

/-- A response that parses is returned as the V1 entry of what it parses as. -/
theorem createEntryV2_eq_ok {response : Except String Response} {entryV2 : LogEntryV2}
    (h : Parses C response entryV2) : createEntryV2 C response = .ok (.ofV2 entryV2) := by
  obtain ⟨r, text, rfl, hsuccess, htext, hparse⟩ := h
  simp [createEntryV2, createV2, hsuccess, htext, hparse, Except.mapError]

end

/-- The answer to a V2 entry is carried into the bundle unchanged exactly when its numbers parse and
its key identifier is no hexadecimal text, and any other entry exactly when its hashes parse. -/
theorem carries_iff {C : Codec} (hC : C.LawfulBase64) (kind version : String) :
    (∀ response entryV2, Parses C response entryV2 →
      ∃ e, createEntryV2 C response = .ok e ∧
        (CarriesV2 entryV2 (TlogEntryBuilder.fromLogEntry C e kind version).build ↔
          RegularV2 entryV2)) ∧
      ∀ e : LogEntry, CarriesV1 C e (TlogEntryBuilder.fromLogEntry C e kind version).build ↔
        RegularV1 e := by
  constructor
  · intro response entryV2 h
    exact ⟨_, createEntryV2_eq_ok h, carriesV2_iff hC entryV2 kind version⟩
  · intro e
    exact carriesV1_iff hC e kind version

/-! ## A response -/

namespace Sample

open Verify

def keyId : String := "wNI9atQGlz+VWfO6LRygH4QUfY/8W4RFwiT5i5WRgB0="

/-- The tree head of a log with two leaves, signed. -/
def envelope : String :=
  "rekor.example\n2\n" ++ Verify.Sample.text64 Merkle.Sample.nodeAB.bytes ++
    "\n\n— rekor.example LfkohQWM\n"

/-- A proof of the second leaf. -/
def proofBody : Json :=
  .object [("logIndex", .string "1"),
    ("rootHash", .string (Verify.Sample.text64 Merkle.Sample.nodeAB.bytes)),
    ("treeSize", .string "2"),
    ("hashes", .array [.string (Verify.Sample.text64 Merkle.Sample.leafA.bytes)]),
    ("checkpoint", .object [("envelope", .string envelope)])]

/-- A response of the log, with its promise and the proof. -/
def body (logIndex : String) : Json :=
  .object [("logIndex", .string logIndex), ("logId", .object [("keyId", .string keyId)]),
    ("kindVersion", .object [("kind", .string "hashedrekord"), ("version", .string "0.0.2")]),
    ("integratedTime", .string "1700000000"),
    ("inclusionPromise", .object [("signedEntryTimestamp", .string "BYw=")]),
    ("inclusionProof", proofBody),
    ("canonicalizedBody", .string "e30=")]

def text (logIndex : String) : String :=
  "\x7b\"logIndex\":\"" ++ logIndex ++ "\",\"logId\":\x7b\"keyId\":\"" ++ keyId ++
  "\"\x7d,\"kindVersion\":\x7b\"kind\":\"hashedrekord\",\"version\":\"0.0.2\"\x7d," ++
  "\"integratedTime\":\"1700000000\",\"inclusionPromise\":\x7b\"signedEntryTimestamp\":" ++
  "\"BYw=\"\x7d,\"inclusionProof\":\x7b\"logIndex\":\"1\",\"rootHash\":\"" ++
  Verify.Sample.text64 Merkle.Sample.nodeAB.bytes ++ "\",\"treeSize\":\"2\",\"hashes\":[\"" ++
  Verify.Sample.text64 Merkle.Sample.leafA.bytes ++ "\"],\"checkpoint\":\x7b\"envelope\":" ++
  "\"rekor.example\\n2\\n" ++ Verify.Sample.text64 Merkle.Sample.nodeAB.bytes ++
  "\\n\\n— rekor.example LfkohQWM\\n\"\x7d\x7d,\"canonicalizedBody\":\"e30=\"\x7d"

/-- Reads the response. -/
def codec (logIndex : String) : Codec :=
  { Verify.Sample.codec with
    parseJson := fun t =>
      if t = text logIndex then .ok (body logIndex)
      else .error "expected value at line 1 column 1" }

theorem lawfulBase64_codec (logIndex : String) : (codec logIndex).LawfulBase64 :=
  ⟨Verify.Sample.lawfulBase64_codec.decode_encode, Verify.Sample.lawfulBase64_codec.length_encode,
    Verify.Sample.lawfulBase64_codec.padded⟩

def response (logIndex : String) : Except String Response :=
  .ok ⟨true, "201 Created", .ok (text logIndex)⟩

/-- The proof of the response. -/
def proofV2 : InclusionProofV2 :=
  ⟨"1", Merkle.Sample.nodeAB, "2", [Merkle.Sample.leafA], ⟨envelope⟩⟩

def entryV2 (logIndex : String) : LogEntryV2 :=
  ⟨logIndex, ⟨keyId⟩, ⟨"hashedrekord", "0.0.2"⟩, "1700000000", some ⟨[0x05, 0x8c]⟩,
    some proofV2, [0x7b, 0x7d]⟩

/-- The hashes of the response are read from their base64 texts. -/
theorem deSha256Hash_text64 (logIndex : String) (hash : Sha256Hash) :
    deSha256Hash (codec logIndex) (.string (Verify.Sample.text64 hash.bytes)) = .ok hash :=
  deSha256Hash_ser (lawfulBase64_codec logIndex) hash

/-- The body and the promise of the response, decoded. -/
theorem deBase64_texts (logIndex : String) :
    (codec logIndex).deBase64 (.string "e30=") = .ok [0x7b, 0x7d] ∧
      (codec logIndex).deBase64 (.string "BYw=") = .ok [0x05, 0x8c] := by
  have hdecode : Verify.Sample.codec.base64Decode "e30=" = .ok [0x7b, 0x7d] ∧
      Verify.Sample.codec.base64Decode "BYw=" = .ok [0x05, 0x8c] := by decide
  simp only [Codec.deBase64, Json.deString, Codec.fromBase64, bind_eq_ok, mapError_eq_ok]
  exact ⟨⟨_, rfl, hdecode.1⟩, ⟨_, rfl, hdecode.2⟩⟩

/-- The proof of the response is read with its hash and its checkpoint. The hashes come back from
their base64 texts as they do for a bundle. -/
theorem de_proofBody (logIndex : String) :
    InclusionProofV2.de (codec logIndex) proofBody = .ok proofV2 := by
  have hhashes : Json.deVec (deSha256Hash (codec logIndex))
      (.array [.string (Verify.Sample.text64 Merkle.Sample.leafA.bytes)]) =
        .ok [Merkle.Sample.leafA] := by
    have hser := Json.deVec_serVec (l := [Merkle.Sample.leafA]) fun hash _ =>
      deSha256Hash_ser (lawfulBase64_codec logIndex) hash
    exact hser
  have hcheckpoint : CheckpointData.de (.object [("envelope", .string envelope)]) =
      .ok ⟨envelope⟩ := CheckpointData.de_ser ⟨envelope⟩
  simp [InclusionProofV2.de, proofBody, Json.deRecord, Json.field, Json.deString, List.lookup_cons,
    hhashes, hcheckpoint, deSha256Hash_text64, proofV2]

/-- The response is read with its promise and its proof, whatever text its index has. The optional
members are there, and neither is `null`. -/
theorem de_body (logIndex : String) :
    LogEntryV2.de (codec logIndex) (body logIndex) = .ok (entryV2 logIndex) := by
  obtain ⟨hbody, hpromise⟩ := deBase64_texts logIndex
  have hproof : Json.deOption (InclusionProofV2.de (codec logIndex)) proofBody =
      .ok (some proofV2) := by
    show (InclusionProofV2.de (codec logIndex) proofBody).map some = _
    rw [de_proofBody]
    rfl
  have hset : Json.deOption (InclusionPromise.de (codec logIndex))
      (.object [("signedEntryTimestamp", .string "BYw=")]) = .ok (some ⟨[0x05, 0x8c]⟩) := by
    simp [Json.deOption, InclusionPromise.de, Json.deRecord, Json.field, hpromise]
  simp [LogEntryV2.de, body, Json.deRecord, Json.field, Json.fieldOr, Json.deString,
    List.lookup_cons, LogId.de, KindVersion.de, hbody, hset, hproof, entryV2]

/-- The client reads the response as the entry. -/
theorem parses (logIndex : String) :
    Parses (codec logIndex) (response logIndex) (entryV2 logIndex) := by
  refine ⟨_, _, rfl, rfl, rfl, ?_⟩
  have hparse : (codec logIndex).parseJson (text logIndex) = .ok (body logIndex) := by
    simp only [codec, if_true]
  simp only [Codec.fromJson, bind_eq_ok, mapError_eq_ok]
  exact ⟨_, hparse, de_body logIndex⟩

/-- With the index 1 all numbers of the response parse, and its key identifier is no hexadecimal
text. -/
theorem regularV2 : RegularV2 (entryV2 "1") :=
  { logIndex := by decide
    logId := .inr (by decide)
    integratedTime := by decide
    inclusionProof := by
      intro p hp
      cases hp
      decide }

end Sample

/-- A response with the index 1, a promise and a proof. -/
theorem carries_iff_response :
    ∃ e, createEntryV2 (Sample.codec "1") (Sample.response "1") = .ok e ∧
      CarriesV2 (Sample.entryV2 "1")
        (TlogEntryBuilder.fromLogEntry (Sample.codec "1") e "hashedrekord" "0.0.2").build := by
  obtain ⟨e, he, hcarries⟩ := (carries_iff (Sample.lawfulBase64_codec "1") "hashedrekord" "0.0.2").1
    _ _ (Sample.parses "1")
  exact ⟨e, he, hcarries.2 Sample.regularV2⟩

/-- An index of 2^63 becomes zero. The builder has no way to report it, and the entry is built with
the index 0. -/
theorem carries_fails :
    ¬ ∀ (C : Codec) (kind version : String) (response : Except String Response)
      (entryV2 : LogEntryV2) (e : LogEntry), C.LawfulBase64 → Parses C response entryV2 →
      createEntryV2 C response = .ok e →
      CarriesV2 entryV2 (TlogEntryBuilder.fromLogEntry C e kind version).build := by
  intro h
  have hcarries := h _ "hashedrekord" "0.0.2" _ _ _
    (Sample.lawfulBase64_codec "9223372036854775808") (Sample.parses _)
    (createEntryV2_eq_ok (Sample.parses _))
  have hnone : parseI64 "9223372036854775808" = none := by decide +kernel
  have hindex := hcarries.logIndex
  rw [Sample.entryV2, hnone] at hindex
  cases hindex

end Sigstore.Bundle
