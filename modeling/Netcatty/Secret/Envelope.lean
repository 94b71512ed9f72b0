import Netcatty.Secret.Bundle

/-! # Secret envelopes

An envelope is a header of 128 bytes, which names the object, the revision, the slot and the epoch
of the key, the encrypted bundle and the tag.  Hashing, key derivation and authenticated encryption
are functions of `SecretCrypto`; what is used of them are the two laws of `SecretCrypto.Lawful`.  An
envelope that was made for a context is opened in that context to its bundle
(`envelope_opens`). -/

namespace Netcatty.Secret

open BigEndian

def u64Limit : ℕ := 2 ^ 64
def u32Limit : ℕ := 2 ^ 32

def envelopeMagic : Bytes := asciiBytes "NCATSBLB"
def envelopeFormatVersion : ℕ := 1
def cipherXChaCha20Poly1305HkdfSha256 : UInt8 := 1
def envelopeHeaderBytes : ℕ := 128
def envelopeTagBytes : ℕ := 16
def minBundlePlaintextBytes : ℕ := 33
def envelopeReservedBytes : ℕ := 12

/-- The domain strings end with a zero byte. -/
def domain (s : String) : Bytes := asciiBytes s ++ [0]

def subkeyDomain : Bytes := domain "netcatty-secret-envelope-subkey-v1"

/-! ### Identifiers -/

structure Uuid where
  bytes : Bytes
  length_eq : bytes.length = 16
  deriving DecidableEq

/-- Version 4, in the high half of the seventh byte. -/
def Uuid.isRandom (id : Uuid) : Bool := id.bytes.getD 6 0 >>> 4 == 4

structure Digest where
  bytes : Bytes
  length_eq : bytes.length = 32
  deriving DecidableEq

/-- A key that is not zero. -/
structure EnvelopeMasterKey where
  bytes : Bytes
  length_eq : bytes.length = 32
  ne_zero : bytes ≠ List.replicate 32 0
  deriving DecidableEq

/-- Twenty-four random bytes. -/
structure Nonce where
  bytes : Bytes
  length_eq : bytes.length = 24
  deriving DecidableEq

def Uuid.fromSlice (bytes : Bytes) : Option Uuid :=
  if h : bytes.length = 16 then some ⟨bytes, h⟩ else none

def Digest.fromSlice (bytes : Bytes) : Option Digest :=
  if h : bytes.length = 32 then some ⟨bytes, h⟩ else none

/-- The two slots; an envelope names its slot by a tag. -/
inductive FileSlot
  | a | b
  deriving DecidableEq, Repr

namespace FileSlot

def forGeneration (generation : ℕ) : FileSlot := if generation % 2 = 1 then a else b

def ownsGeneration : FileSlot → ℕ → Bool
  | a, generation => generation % 2 = 1
  | b, generation => generation % 2 = 0

def tag : FileSlot → UInt8
  | a => 1
  | b => 2

def fromTag (tag : UInt8) : Option FileSlot :=
  if tag = 1 then some a else if tag = 2 then some b else none

theorem fromTag_tag (slot : FileSlot) : fromTag slot.tag = some slot := by
  cases slot <;> rfl

end FileSlot

/-! ### Contexts -/

/-- What `from_digest` checks, and the width of the numbers. -/
structure ValidContext (storeId : Uuid) (revision : ℕ) (slot : FileSlot)
    (generation masterKeyEpoch : ℕ) : Prop where
  random : storeId.isRandom = true
  revision_pos : 0 < revision
  generation_pos : 0 < generation
  epoch_pos : 0 < masterKeyEpoch
  owns : slot.ownsGeneration generation = true
  revision_lt : revision < u64Limit
  generation_lt : generation < u64Limit
  epoch_lt : masterKeyEpoch < u32Limit

theorem validContext_iff {storeId : Uuid} {revision : ℕ} {slot : FileSlot}
    {generation masterKeyEpoch : ℕ} :
    ValidContext storeId revision slot generation masterKeyEpoch ↔
      storeId.isRandom = true ∧ 0 < revision ∧ 0 < generation ∧ 0 < masterKeyEpoch ∧
        slot.ownsGeneration generation = true ∧ revision < u64Limit ∧ generation < u64Limit ∧
        masterKeyEpoch < u32Limit :=
  ⟨fun h => ⟨h.1, h.2, h.3, h.4, h.5, h.6, h.7, h.8⟩,
    fun ⟨h₁, h₂, h₃, h₄, h₅, h₆, h₇, h₈⟩ => ⟨h₁, h₂, h₃, h₄, h₅, h₆, h₇, h₈⟩⟩

instance {storeId : Uuid} {revision : ℕ} {slot : FileSlot} {generation masterKeyEpoch : ℕ} :
    Decidable (ValidContext storeId revision slot generation masterKeyEpoch) :=
  decidable_of_iff' _ validContext_iff

structure SecretEnvelopeContext where
  storeId : Uuid
  entityDigest : Digest
  revision : ℕ
  slot : FileSlot
  generation : ℕ
  masterKeyEpoch : ℕ
  valid : ValidContext storeId revision slot generation masterKeyEpoch
  deriving DecidableEq

def SecretEnvelopeContext.fromDigest (storeId : Uuid) (entityDigest : Digest) (revision : ℕ)
    (slot : FileSlot) (generation masterKeyEpoch : ℕ) :
    Except SecretEnvelopeErrorCode SecretEnvelopeContext :=
  if h : ValidContext storeId revision slot generation masterKeyEpoch then
    .ok ⟨storeId, entityDigest, revision, slot, generation, masterKeyEpoch, h⟩
  else .error .invalidInput

theorem SecretEnvelopeContext.fromDigest_fields (context : SecretEnvelopeContext) :
    fromDigest context.storeId context.entityDigest context.revision context.slot
      context.generation context.masterKeyEpoch = .ok context := dif_pos context.valid

theorem SecretEnvelopeContext.fromDigest_ok_iff {storeId : Uuid} {entityDigest : Digest}
    {revision : ℕ} {slot : FileSlot} {generation masterKeyEpoch : ℕ}
    {context : SecretEnvelopeContext} :
    fromDigest storeId entityDigest revision slot generation masterKeyEpoch = .ok context ↔
      context.storeId = storeId ∧ context.entityDigest = entityDigest ∧
        context.revision = revision ∧ context.slot = slot ∧ context.generation = generation ∧
        context.masterKeyEpoch = masterKeyEpoch := by
  constructor
  · intro h
    unfold fromDigest at h
    by_cases hvalid : ValidContext storeId revision slot generation masterKeyEpoch
    · rw [dif_pos hvalid] at h
      cases h
      exact ⟨rfl, rfl, rfl, rfl, rfl, rfl⟩
    · rw [dif_neg hvalid] at h
      nomatch h
  · rintro ⟨rfl, rfl, rfl, rfl, rfl, rfl⟩
    exact context.fromDigest_fields

/-! ### Cryptography -/

structure SecretCrypto where
  sha256 : Bytes → Digest
  /-- Salt, key and info. -/
  hkdf : Bytes → Bytes → Bytes → Bytes
  /-- Key, nonce, associated data and plaintext to ciphertext and tag. -/
  encryptDetached : Bytes → Bytes → Bytes → Bytes → Bytes × Bytes
  /-- Key, nonce, associated data, ciphertext and tag. -/
  decryptDetached : Bytes → Bytes → Bytes → Bytes → Bytes → Option Bytes

/-- A cipher keeps the length, and opens what it has sealed. -/
structure SecretCrypto.Lawful (E : SecretCrypto) : Prop where
  length_ciphertext : ∀ key nonce data plaintext,
    (E.encryptDetached key nonce data plaintext).1.length = plaintext.length
  length_tag : ∀ key nonce data plaintext,
    (E.encryptDetached key nonce data plaintext).2.length = envelopeTagBytes
  decrypt_encrypt : ∀ key nonce data plaintext,
    E.decryptDetached key nonce data (E.encryptDetached key nonce data plaintext).1
      (E.encryptDetached key nonce data plaintext).2 = some plaintext

/-! ### Headers -/

def headerFields (context : SecretEnvelopeContext) (nonce : Bytes) (plaintextLength : ℕ) :
    List Bytes :=
  [envelopeMagic, beBytes 2 envelopeFormatVersion, [cipherXChaCha20Poly1305HkdfSha256],
    [context.slot.tag], beBytes 4 envelopeHeaderBytes, context.storeId.bytes,
    context.entityDigest.bytes, beBytes 8 context.revision, beBytes 8 context.generation,
    beBytes 4 context.masterKeyEpoch, nonce, beBytes 8 plaintextLength,
    List.replicate envelopeReservedBytes 0]

def encodeHeader (context : SecretEnvelopeContext) (nonce : Bytes) (plaintextLength : ℕ) : Bytes :=
  (headerFields context nonce plaintextLength).flatten

structure ParsedHeader where
  header : Bytes
  context : SecretEnvelopeContext
  nonce : Bytes
  plaintextLength : ℕ

/-- The object of a header; the bytes at hand are as many as a field has. -/
def parseContext (header : Bytes) : Except SecretEnvelopeErrorCode SecretEnvelopeContext :=
  match FileSlot.fromTag (header.getD 11 0), Uuid.fromSlice (slice header 16 16),
    Digest.fromSlice (slice header 32 32) with
  | some slot, some storeId, some entityDigest =>
      (SecretEnvelopeContext.fromDigest storeId entityDigest (readBe header 64 8) slot
        (readBe header 72 8) (readBe header 80 4)).mapError fun _ => .invalidEnvelope
  | _, _, _ => .error .invalidEnvelope

def parseHeader (envelope : Bytes) : Except SecretEnvelopeErrorCode ParsedHeader :=
  if envelope.length < envelopeHeaderBytes + minBundlePlaintextBytes + envelopeTagBytes ∨
      envelopeHeaderBytes + maxBundlePlaintextBytes + envelopeTagBytes < envelope.length then
    .error .invalidEnvelope
  else
    let header := envelope.take envelopeHeaderBytes
    if header.take 8 ≠ envelopeMagic then .error .invalidEnvelope
    else if readBe header 8 2 ≠ envelopeFormatVersion then .error .unsupportedVersion
    else if header.getD 10 0 ≠ cipherXChaCha20Poly1305HkdfSha256 then .error .unsupportedCipher
    else if readBe header 12 4 ≠ envelopeHeaderBytes ∨ (header.drop 116).any (· != 0) then
      .error .invalidEnvelope
    else do
      let context ← parseContext header
      let plaintextLength := readBe header 108 8
      if plaintextLength < minBundlePlaintextBytes ∨ maxBundlePlaintextBytes < plaintextLength ∨
          envelopeHeaderBytes + plaintextLength + envelopeTagBytes ≠ envelope.length then
        .error .invalidEnvelope
      else .ok ⟨header, context, slice header 84 24, plaintextLength⟩

namespace SecretCrypto

variable (E : SecretCrypto)

def cipherFor (masterKey : EnvelopeMasterKey) (header : Bytes) : Bytes :=
  E.hkdf (slice header 16 16) masterKey.bytes (subkeyDomain ++ header)

/-- The nonce is drawn by the caller. -/
def encryptSshSecretBundle (masterKey : EnvelopeMasterKey) (context : SecretEnvelopeContext)
    (nonce : Nonce) (bundle : SshSecretBundle) : Bytes :=
  let header := encodeHeader context nonce.bytes bundle.encode.length
  let sealed := E.encryptDetached (E.cipherFor masterKey header) nonce.bytes header bundle.encode
  header ++ sealed.1 ++ sealed.2

def decryptSshSecretBundle (masterKey : EnvelopeMasterKey) (expected : SecretEnvelopeContext)
    (envelope : Bytes) : Except SecretEnvelopeErrorCode SshSecretBundle := do
  let parsed ← parseHeader envelope
  match E.decryptDetached (E.cipherFor masterKey parsed.header) parsed.nonce parsed.header
      (slice envelope envelopeHeaderBytes parsed.plaintextLength)
      (envelope.drop (envelopeHeaderBytes + parsed.plaintextLength)) with
  | some plaintext =>
      if parsed.context = expected then SshSecretBundle.decode plaintext
      else .error .invalidEnvelope
  | none => .error .invalidEnvelope

def decryptWithEmbeddedContext (masterKey : EnvelopeMasterKey) (envelope : Bytes) :
    Except SecretEnvelopeErrorCode (SecretEnvelopeContext × SshSecretBundle) := do
  let parsed ← parseHeader envelope
  let bundle ← E.decryptSshSecretBundle masterKey parsed.context envelope
  return (parsed.context, bundle)

end SecretCrypto

/-! ### What is sealed is opened -/

section RoundTrip

variable (context : SecretEnvelopeContext) {nonce : Bytes} (hnonce : nonce.length = 24)
  (plaintextLength : ℕ)

include hnonce in
theorem map_length_headerFields :
    (headerFields context nonce plaintextLength).map List.length =
      [8, 2, 1, 1, 4, 16, 32, 8, 8, 4, 24, 8, 12] := by
  simp only [headerFields, List.map_cons, List.map_nil, length_beBytes, hnonce,
    context.storeId.length_eq, context.entityDigest.length_eq, List.length_replicate,
    List.length_singleton]
  rfl

include hnonce in
theorem length_encodeHeader : (encodeHeader context nonce plaintextLength).length = 128 := by
  rw [encodeHeader, List.length_flatten, map_length_headerFields context hnonce]
  rfl

include hnonce in
/-- The field at a position of the header. -/
theorem slice_encodeHeader (i offset : ℕ) {length : ℕ} {field : Bytes}
    (hfield : (headerFields context nonce plaintextLength)[i]? = some field)
    (hoffset : offset = (([8, 2, 1, 1, 4, 16, 32, 8, 8, 4, 24, 8, 12] : List ℕ).take i).sum)
    (hlength : length = field.length) :
    slice (encodeHeader context nonce plaintextLength) offset length = field := by
  obtain ⟨hi, hget⟩ := List.getElem?_eq_some_iff.mp hfield
  rw [encodeHeader, slice_flatten _ hi, hget]
  · rw [List.map_take, map_length_headerFields context hnonce, hoffset]
  · rw [hget, hlength]

include hnonce in
/-- A number in the header is read back. -/
theorem readBe_encodeHeader (i offset : ℕ) {width n : ℕ}
    (hfield : (headerFields context nonce plaintextLength)[i]? = some (beBytes width n))
    (hoffset : offset = (([8, 2, 1, 1, 4, 16, 32, 8, 8, 4, 24, 8, 12] : List ℕ).take i).sum)
    (hn : n < 256 ^ width) :
    readBe (encodeHeader context nonce plaintextLength) offset width = n := by
  rw [readBe, slice_encodeHeader context hnonce plaintextLength _ _ hfield hoffset (by simp),
    beValue_beBytes hn]

theorem getD_eq_of_slice {bytes : Bytes} {offset : ℕ} {b : UInt8}
    (h : slice bytes offset 1 = [b]) : bytes.getD offset 0 = b := by
  unfold slice at h
  cases hdrop : bytes.drop offset with
  | nil => simp [hdrop] at h
  | cons head rest =>
      have hget : bytes[offset]? = some head := by
        rw [← List.head?_drop, hdrop]
        rfl
      rw [hdrop] at h
      cases h
      simp [List.getD, hget]

theorem Uuid.fromSlice_bytes (id : Uuid) : Uuid.fromSlice id.bytes = some id :=
  dif_pos id.length_eq

theorem Digest.fromSlice_bytes (digest : Digest) : Digest.fromSlice digest.bytes = some digest :=
  dif_pos digest.length_eq

include hnonce in
theorem parseContext_encodeHeader :
    parseContext (encodeHeader context nonce plaintextLength) = .ok context := by
  have hvalid := context.valid
  have htag := getD_eq_of_slice
    (slice_encodeHeader context hnonce plaintextLength 3 11 rfl rfl rfl)
  have hstore := slice_encodeHeader context hnonce plaintextLength 5 16 rfl rfl
    context.storeId.length_eq.symm
  have hentity := slice_encodeHeader context hnonce plaintextLength 6 32 rfl rfl
    context.entityDigest.length_eq.symm
  have hrevision := readBe_encodeHeader context hnonce plaintextLength 7 64 rfl
    rfl (Nat.lt_of_lt_of_le hvalid.revision_lt (by decide))
  have hgeneration := readBe_encodeHeader context hnonce plaintextLength 8 72
    rfl rfl (Nat.lt_of_lt_of_le hvalid.generation_lt (by decide))
  have hepoch := readBe_encodeHeader context hnonce plaintextLength 9 80 rfl
    rfl (Nat.lt_of_lt_of_le hvalid.epoch_lt (by decide))
  unfold parseContext
  rw [htag, hstore, hentity, hrevision, hgeneration, hepoch, FileSlot.fromTag_tag,
    Uuid.fromSlice_bytes, Digest.fromSlice_bytes]
  simp only [context.fromDigest_fields]
  rfl

/-- The length of an encoded bundle is in the range of the plaintexts. -/
theorem encode_length_bounds (bundle : SshSecretBundle) :
    minBundlePlaintextBytes ≤ bundle.encode.length ∧
      bundle.encode.length ≤ maxBundlePlaintextBytes := by
  have hv := bundle.valid
  have hprivate : 0 < bundle.privateKey.length := List.length_pos_iff.mpr hv.privateKey_ne
  have := SshSecretBundle.optionalLen_le hv.publicKey
  have := SshSecretBundle.optionalLen_le hv.certificate
  have := SshSecretBundle.optionalLen_le hv.passphrase
  have := hv.privateKey_le
  have hlen := bundle.length_encode
  simp only [maxPublicKeyBytes, maxCertificateBytes, maxPassphraseBytes, maxPrivateKeyBytes,
    maxBundlePlaintextBytes, minBundlePlaintextBytes, SshSecretBundle.encodedLen, encodedLength,
    plaintextHeaderBytes] at *
  omega

include hnonce in
theorem parseHeader_encode {body : Bytes} (hmin : minBundlePlaintextBytes ≤ plaintextLength)
    (hmax : plaintextLength ≤ maxBundlePlaintextBytes)
    (hbody : body.length = plaintextLength + envelopeTagBytes) :
    parseHeader (encodeHeader context nonce plaintextLength ++ body) =
      .ok ⟨encodeHeader context nonce plaintextLength, context, nonce, plaintextLength⟩ := by
  have hlen := length_encodeHeader context hnonce plaintextLength
  have htotal : (encodeHeader context nonce plaintextLength ++ body).length =
      envelopeHeaderBytes + plaintextLength + envelopeTagBytes := by
    rw [List.length_append, hlen, hbody, envelopeHeaderBytes]
    omega
  have hbounds : ¬ ((encodeHeader context nonce plaintextLength ++ body).length <
      envelopeHeaderBytes + minBundlePlaintextBytes + envelopeTagBytes ∨
      envelopeHeaderBytes + maxBundlePlaintextBytes + envelopeTagBytes <
        (encodeHeader context nonce plaintextLength ++ body).length) := by
    rw [htotal]
    omega
  have htake : (encodeHeader context nonce plaintextLength ++ body).take envelopeHeaderBytes =
      encodeHeader context nonce plaintextLength := List.take_left' hlen
  have hmagic : (encodeHeader context nonce plaintextLength).take 8 = envelopeMagic :=
    slice_encodeHeader context hnonce plaintextLength 0 _ rfl rfl rfl
  have hversion := readBe_encodeHeader context hnonce plaintextLength 1 8 rfl
    rfl (by decide)
  have hcipher := getD_eq_of_slice
    (slice_encodeHeader context hnonce plaintextLength 2 10 rfl rfl rfl)
  have hheader := readBe_encodeHeader context hnonce plaintextLength 4 _ rfl
    rfl (by decide)
  have hnonce' := slice_encodeHeader context hnonce plaintextLength 10 84 rfl
    rfl hnonce.symm
  have hplain := readBe_encodeHeader context hnonce plaintextLength 11 108 rfl
    rfl (Nat.lt_of_le_of_lt hmax (by decide))
  have hreserved : (encodeHeader context nonce plaintextLength).drop 116 =
      List.replicate envelopeReservedBytes 0 := by
    have hslice := slice_encodeHeader context hnonce plaintextLength 12 _ rfl
      rfl rfl
    rwa [slice, List.take_of_length_le (by rw [List.length_drop, hlen]; decide)] at hslice
  have hzero : (List.replicate envelopeReservedBytes (0 : UInt8)).any (· != 0) = false := rfl
  unfold parseHeader
  rw [if_neg hbounds]
  simp only [htake]
  rw [if_neg (not_not.mpr hmagic), if_neg (not_not.mpr hversion), if_neg (not_not.mpr hcipher),
    hreserved, hzero, if_neg (by simpa using hheader), parseContext_encodeHeader context hnonce]
  simp only [bind, Except.bind, hplain, hnonce']
  rw [if_neg (by rw [htotal]; omega)]

namespace SecretCrypto

variable {E : SecretCrypto} (hE : E.Lawful) (masterKey : EnvelopeMasterKey) (nonce : Nonce)
  (bundle : SshSecretBundle)

include hE in
/-- **An envelope is opened to its bundle**, in the context it was made for and in no other one. -/
theorem envelope_opens (expected : SecretEnvelopeContext) :
    E.decryptSshSecretBundle masterKey expected
        (E.encryptSshSecretBundle masterKey context nonce bundle) =
      if context = expected then .ok bundle else .error .invalidEnvelope := by
  obtain ⟨hmin, hmax⟩ := encode_length_bounds bundle
  have hlen := length_encodeHeader context nonce.length_eq bundle.encode.length
  simp only [encryptSshSecretBundle, decryptSshSecretBundle]
  generalize hheader : encodeHeader context nonce.bytes bundle.encode.length = header at hlen
  generalize hkey : E.cipherFor masterKey header = key
  have hcipher := hE.length_ciphertext key nonce.bytes header bundle.encode
  have htag := hE.length_tag key nonce.bytes header bundle.encode
  have hopen := hE.decrypt_encrypt key nonce.bytes header bundle.encode
  generalize E.encryptDetached key nonce.bytes header bundle.encode = sealed at hcipher htag hopen
  have hparse := parseHeader_encode context nonce.length_eq bundle.encode.length hmin hmax
    (show (sealed.1 ++ sealed.2).length = _ by rw [List.length_append, hcipher, htag])
  rw [hheader] at hparse
  have hslice : slice (header ++ (sealed.1 ++ sealed.2)) envelopeHeaderBytes bundle.encode.length =
      sealed.1 := slice_append header sealed.1 sealed.2 hlen.symm hcipher.symm
  have hdrop : (header ++ (sealed.1 ++ sealed.2)).drop
      (envelopeHeaderBytes + bundle.encode.length) = sealed.2 := by
    rw [← List.append_assoc]
    exact List.drop_left' (by rw [List.length_append, hlen, hcipher]; rfl)
  rw [List.append_assoc, hparse]
  simp only [bind, Except.bind, hslice, hdrop, hkey, hopen, SshSecretBundle.decode_encode]

/-- A cipher that leaves the text as it is. -/
def plain : SecretCrypto where
  sha256 _ := ⟨List.replicate 32 0, rfl⟩
  hkdf _ key _ := key
  encryptDetached _ _ _ plaintext := (plaintext, List.replicate 16 0)
  decryptDetached _ _ _ ciphertext _ := some ciphertext

theorem envelope_opens_plain :
    let key : EnvelopeMasterKey := ⟨List.replicate 32 1, rfl, by decide⟩
    let context : SecretEnvelopeContext :=
      ⟨⟨[1, 2, 3, 4, 5, 6, 0x47, 8, 0x89, 10, 11, 12, 13, 14, 15, 16], rfl⟩,
        ⟨List.replicate 32 7, rfl⟩, 1, .a, 1, 1, by decide⟩
    let bundle : SshSecretBundle := ⟨[1], none, none, none, by simp, by decide,
      by simp [IsOptionalField], by simp [IsOptionalField], by simp [IsOptionalField]⟩
    plain.decryptSshSecretBundle key context (plain.encryptSshSecretBundle key context
      ⟨List.replicate 24 9, rfl⟩ bundle) = .ok bundle :=
  envelope_opens _ ⟨fun _ _ _ _ => rfl, fun _ _ _ _ => rfl, fun _ _ _ _ => rfl⟩ _ _ _ _

end SecretCrypto

end RoundTrip

end Netcatty.Secret
