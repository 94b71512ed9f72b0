import Netcatty.Library.Catalog
import Netcatty.Secret.Envelope

/-! # The encodings of bundles and headers

`decode` takes exactly the encodings of bundles (`decode_ok_iff`), and `parseHeader` exactly the
headers of contexts in front of as many bytes as they announce (`parseHeader_ok_iff`).  Both are
written here a second time with every addition and every range checked, and the checks never fail
(`decodeChecked_eq`, `parseHeaderChecked_eq`). -/

namespace Netcatty.Secret

open BigEndian
open Catalog (bind_ok_iff)

/-! ### Checked access -/

/-- Pointers have 32 or 64 bits. -/
inductive PointerWidth
  | w32 | w64
  deriving DecidableEq, Repr

def PointerWidth.usizeLimit : PointerWidth → ℕ
  | w32 => 2 ^ 32
  | w64 => 2 ^ 64

/-- A sum leaves `usize`, a range leaves the buffer, or the input is refused. -/
inductive Fault
  | overflow
  | outside
  | refused (code : SecretEnvelopeErrorCode)
  deriving DecidableEq, Repr

abbrev Access := Except Fault

def refusing {α : Type} (result : Except SecretEnvelopeErrorCode α) : Access α :=
  result.mapError .refused

def require (condition : Prop) [Decidable condition] (code : SecretEnvelopeErrorCode) :
    Access Unit :=
  if condition then .ok () else .error (.refused code)

def add (width : PointerWidth) (a b : ℕ) : Access ℕ :=
  if a + b < width.usizeLimit then .ok (a + b) else .error .overflow

def range (bytes : Bytes) (start stop : ℕ) : Access Bytes :=
  if start ≤ stop ∧ stop ≤ bytes.length then .ok (slice bytes start (stop - start))
  else .error .outside

/-- `read_u16`, `read_u32` and `read_u64`, for two, four and eight bytes. -/
def readNumber (width : PointerWidth) (count : ℕ) (bytes : Bytes) (offset : ℕ) : Access ℕ := do
  let stop ← add width offset count
  let raw ← range bytes offset stop
  return beValue raw

/-- `encoded_length`. -/
def encodedLengthChecked (width : PointerWidth)
    (privateLen publicLen certificateLen passphraseLen : ℕ) : Access ℕ :=
  [privateLen, publicLen, certificateLen, passphraseLen].foldlM (add width) plaintextHeaderBytes

/-- A field, and where it ends. -/
def takeField (width : PointerWidth) (plaintext : Bytes) (cursor length : ℕ) :
    Access (Bytes × ℕ) := do
  let stop ← add width cursor length
  let field ← range plaintext cursor stop
  return (field, stop)

def takeOptionalFieldChecked (width : PointerWidth) (plaintext : Bytes) (cursor length : ℕ) :
    Access (Option Bytes × ℕ) :=
  if length = 0 then .ok (none, cursor)
  else (takeField width plaintext cursor length).map fun (field, stop) => (some field, stop)

/-- `SshSecretBundle::decode`. -/
def SshSecretBundle.decodeChecked (width : PointerWidth) (plaintext : Bytes) :
    Access SshSecretBundle := do
  require (plaintextHeaderBytes ≤ plaintext.length ∧ plaintext.length ≤ maxBundlePlaintextBytes)
    .invalidEnvelope
  let magic ← range plaintext 0 8
  require (magic = plaintextMagic) .invalidEnvelope
  let version ← readNumber width 2 plaintext 8
  require (version = plaintextFormatVersion) .unsupportedVersion
  let headerLen ← readNumber width 2 plaintext 10
  require (headerLen = plaintextHeaderBytes) .invalidEnvelope
  let reserved ← range plaintext 28 32
  require (reserved.any (· != 0) = false) .invalidEnvelope
  let privateLen ← readNumber width 4 plaintext 12
  let publicLen ← readNumber width 4 plaintext 16
  let certificateLen ← readNumber width 4 plaintext 20
  let passphraseLen ← readNumber width 4 plaintext 24
  refusing (validateRequiredLen privateLen maxPrivateKeyBytes)
  refusing (validateOptionalLen publicLen maxPublicKeyBytes)
  refusing (validateOptionalLen certificateLen maxCertificateBytes)
  refusing (validateOptionalLen passphraseLen maxPassphraseBytes)
  let expectedLen ←
    encodedLengthChecked width privateLen publicLen certificateLen passphraseLen
  require (expectedLen = plaintext.length ∧ expectedLen ≤ maxBundlePlaintextBytes) .invalidEnvelope
  let (privateKey, cursor) ← takeField width plaintext plaintextHeaderBytes privateLen
  let (publicKey, cursor) ← takeOptionalFieldChecked width plaintext cursor publicLen
  let (certificate, cursor) ← takeOptionalFieldChecked width plaintext cursor certificateLen
  let (passphrase, cursor) ← takeOptionalFieldChecked width plaintext cursor passphraseLen
  require (cursor = plaintext.length) .invalidEnvelope
  refusing ((SshSecretBundle.new privateKey publicKey certificate passphrase).mapError
    fun _ => .invalidEnvelope)

/-- `SshSecretBundle::encode`, up to the bytes that it writes. -/
def SshSecretBundle.encodeChecked (width : PointerWidth) (bundle : SshSecretBundle) :
    Access Bytes := do
  require (bundle.privateKey.length < u32Limit) .tooLarge
  require (optionalLen bundle.publicKey < u32Limit) .tooLarge
  require (optionalLen bundle.certificate < u32Limit) .tooLarge
  require (optionalLen bundle.passphrase < u32Limit) .tooLarge
  let totalLen ← encodedLengthChecked width bundle.privateKey.length
    (optionalLen bundle.publicKey) (optionalLen bundle.certificate) (optionalLen bundle.passphrase)
  require (totalLen ≤ maxBundlePlaintextBytes) .tooLarge
  return bundle.encode

/-- The fields of a header that has all of its bytes. -/
def parseContextChecked (width : PointerWidth) (header : Bytes) : Access SecretEnvelopeContext := do
  let tag ← range header 11 12
  let slot ← refusing ((FileSlot.fromTag (tag.headD 0)).elim (.error .invalidEnvelope) .ok)
  let storeId ← range header 16 32
  let storeId ← refusing ((Uuid.fromSlice storeId).elim (.error .invalidEnvelope) .ok)
  require (storeId.isRandom = true) .invalidEnvelope
  let digest ← range header 32 64
  let entityDigest ← refusing ((Digest.fromSlice digest).elim (.error .invalidEnvelope) .ok)
  let revision ← readNumber width 8 header 64
  let generation ← readNumber width 8 header 72
  let masterKeyEpoch ← readNumber width 4 header 80
  refusing ((SecretEnvelopeContext.fromDigest storeId entityDigest revision slot generation
    masterKeyEpoch).mapError fun _ => .invalidEnvelope)

/-- `parse_header`. -/
def parseHeaderChecked (width : PointerWidth) (envelope : Bytes) : Access ParsedHeader := do
  let maximum ← add width envelopeHeaderBytes maxBundlePlaintextBytes
  let maximum ← add width maximum envelopeTagBytes
  require (envelopeHeaderBytes + minBundlePlaintextBytes + envelopeTagBytes ≤ envelope.length ∧
    envelope.length ≤ maximum) .invalidEnvelope
  let header ← range envelope 0 envelopeHeaderBytes
  let magic ← range header 0 8
  require (magic = envelopeMagic) .invalidEnvelope
  let version ← readNumber width 2 header 8
  require (version = envelopeFormatVersion) .unsupportedVersion
  let cipher ← range header 10 11
  require (cipher = [cipherXChaCha20Poly1305HkdfSha256]) .unsupportedCipher
  let headerLen ← readNumber width 4 header 12
  require (headerLen = envelopeHeaderBytes) .invalidEnvelope
  let reserved ← range header 116 header.length
  require (reserved.any (· != 0) = false) .invalidEnvelope
  let context ← parseContextChecked width header
  let nonce ← range header 84 108
  let plaintextLength ← readNumber width 8 header 108
  require (plaintextLength < width.usizeLimit) .invalidEnvelope
  require (minBundlePlaintextBytes ≤ plaintextLength ∧ plaintextLength ≤ maxBundlePlaintextBytes)
    .invalidEnvelope
  let expected ← add width envelopeHeaderBytes plaintextLength
  let expected ← add width expected envelopeTagBytes
  require (expected = envelope.length) .invalidEnvelope
  return ⟨header, context, nonce, plaintextLength⟩

section Access

variable {width : PointerWidth}

theorem add_eq {a b : ℕ} (h : a + b < 2 ^ 32) : add width a b = .ok (a + b) := by
  refine if_pos ?_
  cases width with
  | w32 => exact h
  | w64 => exact Nat.lt_trans h (by decide)

theorem range_eq {bytes : Bytes} {start stop : ℕ} (hle : start ≤ stop)
    (h : stop ≤ bytes.length) : range bytes start stop = .ok (slice bytes start (stop - start)) :=
  if_pos ⟨hle, h⟩

@[simp] theorem ok_bind {α β : Type} (a : α) (f : α → Access β) :
    ((.ok a : Access α) >>= f) = f a := rfl

@[simp] theorem refusing_ok {α : Type} (a : α) : refusing (.ok a) = .ok a := rfl

theorem readNumber_eq {count offset : ℕ} {bytes : Bytes} (h : offset + count ≤ bytes.length)
    (hlength : bytes.length < 2 ^ 32) :
    readNumber width count bytes offset = .ok (readBe bytes offset count) := by
  rw [readNumber, add_eq (by omega), ok_bind, range_eq (by omega) h, ok_bind,
    Nat.add_sub_cancel_left]
  rfl

theorem require_bind {α : Type} {condition refusal : Prop} [Decidable condition]
    [Decidable refusal] {code : SecretEnvelopeErrorCode} {k : Unit → Access α}
    {result : Except SecretEnvelopeErrorCode α} (hrefusal : refusal ↔ ¬condition)
    (h : condition → k () = refusing result) :
    (require condition code >>= k) = refusing (if refusal then .error code else result) := by
  unfold require
  by_cases hc : condition
  · rw [if_pos hc, if_neg (fun hr => hrefusal.mp hr hc), ok_bind, h hc]
  · rw [if_neg hc, if_pos (hrefusal.mpr hc)]
    rfl

theorem refusing_eq_ok_iff {α : Type} {result : Except SecretEnvelopeErrorCode α} {a : α} :
    refusing result = .ok a ↔ result = .ok a := by
  cases result with
  | error code => exact ⟨nofun, nofun⟩
  | ok b => exact ⟨fun h => congrArg _ (Except.ok.inj h), fun h => congrArg _ (Except.ok.inj h)⟩

theorem refused_of_refusing {α : Type} {result : Except SecretEnvelopeErrorCode α}
    {fault : Fault} (h : refusing result = .error fault) : ∃ code, fault = .refused code := by
  cases result with
  | error code => exact ⟨code, (Except.error.inj h).symm⟩
  | ok b => nomatch h

theorem refusing_bind {α β : Type} {result : Except SecretEnvelopeErrorCode α}
    {k : α → Access β} {f : α → Except SecretEnvelopeErrorCode β}
    (h : ∀ a, result = .ok a → k a = refusing (f a)) :
    (refusing result >>= k) = refusing (result >>= f) := by
  cases result with
  | error code => rfl
  | ok a => exact h a rfl

theorem encodedLengthChecked_eq {privateLen publicLen certificateLen passphraseLen : ℕ}
    (h : encodedLength privateLen publicLen certificateLen passphraseLen < 2 ^ 32) :
    encodedLengthChecked width privateLen publicLen certificateLen passphraseLen =
      .ok (encodedLength privateLen publicLen certificateLen passphraseLen) := by
  unfold encodedLength at h ⊢
  rw [encodedLengthChecked, List.foldlM_cons, add_eq (by omega), ok_bind, List.foldlM_cons,
    add_eq (by omega), ok_bind, List.foldlM_cons, add_eq (by omega), ok_bind, List.foldlM_cons,
    add_eq h, ok_bind]
  rfl

theorem takeField_eq {plaintext : Bytes} {cursor length : ℕ}
    (h : cursor + length ≤ plaintext.length) (hlength : plaintext.length < 2 ^ 32) :
    takeField width plaintext cursor length =
      .ok (slice plaintext cursor length, cursor + length) := by
  rw [takeField, add_eq (by omega), ok_bind, range_eq (by omega) h, ok_bind,
    Nat.add_sub_cancel_left]
  rfl

theorem takeOptionalFieldChecked_eq {plaintext : Bytes} {cursor length : ℕ}
    (h : cursor + length ≤ plaintext.length) (hlength : plaintext.length < 2 ^ 32) :
    takeOptionalFieldChecked width plaintext cursor length =
      .ok (SshSecretBundle.takeOptionalField plaintext cursor length, cursor + length) := by
  unfold takeOptionalFieldChecked SshSecretBundle.takeOptionalField
  by_cases h₀ : length = 0
  · rw [if_pos h₀, if_pos h₀, h₀]
    rfl
  · rw [if_neg h₀, if_neg h₀, takeField_eq h hlength]
    rfl

end Access

/-! ### Bundles -/

theorem ok_of_mapError {ε ε' α : Type} {f : ε → ε'} {x : Except ε α} {a : α}
    (h : x.mapError f = .ok a) : x = .ok a := by
  cases x with
  | error e => nomatch h
  | ok b => cases h; rfl

theorem eq_replicate_of_any {bytes : Bytes} {n : ℕ} (hlength : bytes.length = n)
    (h : bytes.any (· != 0) = false) : bytes = List.replicate n 0 := by
  refine List.eq_replicate_iff.mpr ⟨hlength, fun byte hmem => ?_⟩
  simpa using List.any_eq_false.mp h byte hmem

namespace SshSecretBundle

/-- No sum overflows and no range leaves the plaintext. -/
theorem decodeChecked_eq (width : PointerWidth) (plaintext : Bytes) :
    decodeChecked width plaintext = refusing (decode plaintext) := by
  unfold decodeChecked decode
  refine require_bind (by omega) fun hbounds => ?_
  obtain ⟨hmin, hmax⟩ := hbounds
  simp only [plaintextHeaderBytes, maxBundlePlaintextBytes] at hmin hmax
  have hlength : plaintext.length < 2 ^ 32 := by omega
  rw [range_eq (Nat.zero_le 8) (by omega), ok_bind]
  refine require_bind Iff.rfl fun _ => ?_
  rw [readNumber_eq (by omega) hlength, ok_bind]
  refine require_bind Iff.rfl fun _ => ?_
  rw [readNumber_eq (by omega) hlength, ok_bind, ite_or]
  refine require_bind Iff.rfl fun _ => ?_
  rw [range_eq (by omega) hmin, ok_bind]
  refine require_bind (by simp) fun _ => ?_
  rw [readNumber_eq (by omega) hlength, ok_bind, readNumber_eq (by omega) hlength, ok_bind,
    readNumber_eq (by omega) hlength, ok_bind, readNumber_eq (by omega) hlength, ok_bind]
  refine refusing_bind fun _ hprivate => refusing_bind fun _ hpublic =>
    refusing_bind fun _ hcertificate => refusing_bind fun _ hpassphrase => ?_
  replace hprivate := (validateRequiredLen_ok_iff.mp hprivate).2
  replace hpublic := validateOptionalLen_ok_iff.mp hpublic
  replace hcertificate := validateOptionalLen_ok_iff.mp hcertificate
  replace hpassphrase := validateOptionalLen_ok_iff.mp hpassphrase
  have hsum : encodedLength (readBe plaintext 12 4) (readBe plaintext 16 4)
      (readBe plaintext 20 4) (readBe plaintext 24 4) < 2 ^ 32 := by
    simp only [maxPrivateKeyBytes, maxPublicKeyBytes, maxCertificateBytes, maxPassphraseBytes,
      encodedLength, plaintextHeaderBytes] at *
    omega
  rw [encodedLengthChecked_eq hsum, ok_bind]
  refine require_bind (by simp only [maxBundlePlaintextBytes]; omega) fun hbound => ?_
  have hsize := hbound.1
  simp only [encodedLength, plaintextHeaderBytes] at hsize
  rw [takeField_eq (by simp only [plaintextHeaderBytes]; omega) hlength, ok_bind]
  simp only [plaintextHeaderBytes]
  rw [takeOptionalFieldChecked_eq (by omega) hlength, ok_bind]
  simp only
  rw [takeOptionalFieldChecked_eq (by omega) hlength, ok_bind]
  simp only
  rw [takeOptionalFieldChecked_eq (by omega) hlength, ok_bind]
  simp only [require, if_pos hsize, ok_bind]

theorem encodeChecked_eq (width : PointerWidth) (bundle : SshSecretBundle) :
    bundle.encodeChecked width = .ok bundle.encode := by
  have hprivate := bundle.valid.privateKey_le
  have hpublic := optionalLen_le bundle.valid.publicKey
  have hcertificate := optionalLen_le bundle.valid.certificate
  have hpassphrase := optionalLen_le bundle.valid.passphrase
  have hmax := (encode_length_bounds bundle).2
  rw [length_encode, encodedLen] at hmax
  simp only [maxPrivateKeyBytes, maxPublicKeyBytes, maxCertificateBytes, maxPassphraseBytes]
    at hprivate hpublic hcertificate hpassphrase
  have hsum : encodedLength bundle.privateKey.length (optionalLen bundle.publicKey)
      (optionalLen bundle.certificate) (optionalLen bundle.passphrase) < 2 ^ 32 := by
    simp only [maxBundlePlaintextBytes] at hmax
    omega
  rw [encodeChecked, require, if_pos (by simp only [u32Limit]; omega), ok_bind, require,
    if_pos (by simp only [u32Limit]; omega), ok_bind, require,
    if_pos (by simp only [u32Limit]; omega), ok_bind, require,
    if_pos (by simp only [u32Limit]; omega), ok_bind, encodedLengthChecked_eq hsum, ok_bind,
    require, if_pos hmax]
  rfl

theorem contentsMatch_iff {bundle other : SshSecretBundle} :
    bundle.contentsMatch other = true ↔ other = bundle := by
  unfold contentsMatch
  constructor
  · intro h
    simp only [Bool.and_eq_true, beq_iff_eq] at h
    obtain ⟨⟨⟨hprivate, hpublic⟩, hcertificate⟩, hpassphrase⟩ := h
    cases bundle
    cases other
    cases hprivate
    cases hpublic
    cases hcertificate
    cases hpassphrase
    rfl
  · rintro rfl
    simp

theorem new_ok {privateKey : Bytes} {publicKey certificate passphrase : Option Bytes}
    {bundle : SshSecretBundle} (h : new privateKey publicKey certificate passphrase = .ok bundle) :
    bundle.privateKey = privateKey ∧ bundle.publicKey = normalizeOptional publicKey ∧
      bundle.certificate = normalizeOptional certificate ∧
      bundle.passphrase = normalizeOptional passphrase := by
  unfold new at h
  cases hprivate : validateRequired privateKey maxPrivateKeyBytes with
  | error => rw [hprivate] at h; nomatch h
  | ok => ?_
  cases hpublic : validateOptional (normalizeOptional publicKey) maxPublicKeyBytes with
  | error => rw [hprivate, hpublic] at h; nomatch h
  | ok => ?_
  cases hcertificate : validateOptional (normalizeOptional certificate) maxCertificateBytes with
  | error => rw [hprivate, hpublic, hcertificate] at h; nomatch h
  | ok => ?_
  cases hpassphrase : validateOptional (normalizeOptional passphrase) maxPassphraseBytes with
  | error => rw [hprivate, hpublic, hcertificate, hpassphrase] at h; nomatch h
  | ok => ?_
  rw [hprivate, hpublic, hcertificate, hpassphrase] at h
  simp only [bind, Except.bind] at h
  split_ifs at h
  cases h
  exact ⟨rfl, rfl, rfl, rfl⟩

/-- A field that was read is kept as it is. -/
theorem normalizeOptional_takeOptionalField {plaintext : Bytes} {cursor length : ℕ}
    (h : cursor + length ≤ plaintext.length) :
    normalizeOptional (takeOptionalField plaintext cursor length) =
        takeOptionalField plaintext cursor length ∧
      optionalLen (takeOptionalField plaintext cursor length) = length ∧
      (takeOptionalField plaintext cursor length).getD [] = slice plaintext cursor length := by
  unfold takeOptionalField
  by_cases h₀ : length = 0
  · rw [if_pos h₀, h₀]
    exact ⟨rfl, rfl, by simp [slice]⟩
  · rw [if_neg h₀]
    have hlength := length_slice h
    have hne : slice plaintext cursor length ≠ [] := fun hnil => by
      rw [hnil] at hlength
      exact h₀ hlength.symm
    refine ⟨?_, hlength, rfl⟩
    simp [normalizeOptional, hne]

theorem length_plaintextMagic : plaintextMagic.length = 8 := by decide +kernel

/-- **What is decoded is an encoding.** -/
theorem encode_of_decode {plaintext : Bytes} {bundle : SshSecretBundle}
    (h : decode plaintext = .ok bundle) : bundle.encode = plaintext := by
  unfold decode at h
  split_ifs at h with hbounds hmagic hversion hheader
  rw [not_or, Nat.not_lt, Nat.not_lt] at hbounds
  simp only [plaintextHeaderBytes] at hbounds
  rw [not_not] at hmagic hversion
  rw [not_or, not_not] at hheader
  obtain ⟨hheader, hreserved⟩ := hheader
  obtain ⟨-, hprivate, h⟩ := bind_ok_iff.mp h
  obtain ⟨-, hpublic, h⟩ := bind_ok_iff.mp h
  obtain ⟨-, hcertificate, h⟩ := bind_ok_iff.mp h
  obtain ⟨-, hpassphrase, h⟩ := bind_ok_iff.mp h
  split_ifs at h with hsize
  rw [not_not] at hsize
  simp only [encodedLength, plaintextHeaderBytes] at hsize
  obtain ⟨hkey, hpub, hcert, hpass⟩ := new_ok (ok_of_mapError h)
  obtain ⟨hpub₁, hpub₂, hpub₃⟩ := normalizeOptional_takeOptionalField
    (show 32 + readBe plaintext 12 4 + readBe plaintext 16 4 ≤ plaintext.length by omega)
  obtain ⟨hcert₁, hcert₂, hcert₃⟩ := normalizeOptional_takeOptionalField
    (show 32 + readBe plaintext 12 4 + readBe plaintext 16 4 + readBe plaintext 20 4 ≤
      plaintext.length by omega)
  obtain ⟨hpass₁, hpass₂, hpass₃⟩ := normalizeOptional_takeOptionalField
    (show 32 + readBe plaintext 12 4 + readBe plaintext 16 4 + readBe plaintext 20 4 +
      readBe plaintext 24 4 ≤ plaintext.length by omega)
  have hkeyLength : (slice plaintext 32 (readBe plaintext 12 4)).length = readBe plaintext 12 4 :=
    length_slice (by omega)
  -- The plaintext, field by field.
  have hsplit : plaintext.drop 0 = bundle.fields.flatten := by
    simp only [fields, List.flatten_cons, List.flatten_nil, List.append_nil]
    rw [hkey, hpub, hcert, hpass, hpub₁, hcert₁, hpass₁, hpub₂, hcert₂, hpass₂, hpub₃, hcert₃,
      hpass₃, hkeyLength]
    rw [drop_eq_append_iff length_plaintextMagic, drop_eq_append_iff (length_beBytes 2 _),
      drop_eq_append_iff (length_beBytes 2 _), drop_eq_append_iff (length_beBytes 4 _),
      drop_eq_append_iff (length_beBytes 4 _), drop_eq_append_iff (length_beBytes 4 _),
      drop_eq_append_iff (length_beBytes 4 _),
      drop_eq_append_iff (show (List.replicate plaintextReservedBytes 0).length = 4 from rfl),
      drop_eq_append_iff hkeyLength, drop_eq_append_iff (length_slice (by omega)),
      drop_eq_append_iff (length_slice (by omega))]
    refine ⟨hmagic, ?_, ?_, ?_, ?_, ?_, ?_, ?_, rfl, rfl, rfl, ?_⟩
    · rw [← hversion, beBytes_readBe (by omega)]
    · rw [← hheader, beBytes_readBe (by omega)]
    · exact (beBytes_readBe (by omega)).symm
    · exact (beBytes_readBe (by omega)).symm
    · exact (beBytes_readBe (by omega)).symm
    · exact (beBytes_readBe (by omega)).symm
    · exact eq_replicate_of_any (length_slice (by omega)) (by simpa using hreserved)
    · refine (List.take_of_length_le ?_).symm
      rw [List.length_drop]
      omega
  exact hsplit.symm

/-- `decode` takes exactly the encodings of bundles. -/
theorem decode_ok_iff {plaintext : Bytes} {bundle : SshSecretBundle} :
    decode plaintext = .ok bundle ↔ bundle.encode = plaintext :=
  ⟨encode_of_decode, fun h => h ▸ decode_encode bundle⟩

end SshSecretBundle

/-! ### Headers -/

theorem slice_to_end (bytes : Bytes) (offset : ℕ) :
    slice bytes offset (bytes.length - offset) = bytes.drop offset :=
  List.take_of_length_le (by rw [List.length_drop])

theorem slice_eq_singleton_iff {bytes : Bytes} {offset : ℕ} {b : UInt8}
    (h : offset + 1 ≤ bytes.length) : slice bytes offset 1 = [b] ↔ bytes.getD offset 0 = b := by
  refine ⟨getD_eq_of_slice, fun hget => ?_⟩
  have hlt : offset < bytes.length := h
  rw [List.getD, List.getElem?_eq_getElem hlt, Option.getD_some] at hget
  rw [slice, List.drop_eq_getElem_cons hlt, hget]
  rfl

theorem headD_slice {bytes : Bytes} {offset : ℕ} (h : offset + 1 ≤ bytes.length) :
    (slice bytes offset 1).headD 0 = bytes.getD offset 0 := by
  rw [(slice_eq_singleton_iff h).mpr rfl]
  rfl

theorem fromTag_eq_some_iff {tag : UInt8} {slot : FileSlot} :
    FileSlot.fromTag tag = some slot ↔ slot.tag = tag := by
  unfold FileSlot.fromTag
  split_ifs with ha hb
  · rw [ha]; cases slot <;> decide
  · rw [hb]; cases slot <;> decide
  · cases slot
    · exact ⟨nofun, fun h => absurd h.symm ha⟩
    · exact ⟨nofun, fun h => absurd h.symm hb⟩

/-- What the header says of its object. -/
theorem parseContext_ok_iff {header : Bytes} {context : SecretEnvelopeContext}
    (hlength : header.length = 128) :
    parseContext header = .ok context ↔ header.getD 11 0 = context.slot.tag ∧
      slice header 16 16 = context.storeId.bytes ∧
      slice header 32 32 = context.entityDigest.bytes ∧ readBe header 64 8 = context.revision ∧
      readBe header 72 8 = context.generation ∧ readBe header 80 4 = context.masterKeyEpoch := by
  have hstore : Uuid.fromSlice (slice header 16 16) =
      some ⟨slice header 16 16, length_slice (by omega)⟩ := dif_pos _
  have hdigest : Digest.fromSlice (slice header 32 32) =
      some ⟨slice header 32 32, length_slice (by omega)⟩ := dif_pos _
  unfold parseContext
  rw [hstore, hdigest]
  cases hslot : FileSlot.fromTag (header.getD 11 0) with
  | none =>
      refine ⟨nofun, fun ⟨htag, _⟩ => ?_⟩
      rw [htag, FileSlot.fromTag_tag] at hslot
      cases hslot
  | some slot =>
      have htag := fromTag_eq_some_iff.mp hslot
      show Except.mapError _ (SecretEnvelopeContext.fromDigest _ _ _ _ _ _) = _ ↔ _
      constructor
      · intro h
        obtain ⟨h₁, h₂, h₃, h₄, h₅, h₆⟩ :=
          SecretEnvelopeContext.fromDigest_ok_iff.mp (ok_of_mapError h)
        rw [h₁, h₂, h₃, h₄, h₅, h₆]
        exact ⟨htag.symm, rfl, rfl, rfl, rfl, rfl⟩
      · rintro ⟨h₁, h₂, h₃, h₄, h₅, h₆⟩
        have hok := SecretEnvelopeContext.fromDigest_ok_iff.mpr
          (show context.storeId = ⟨slice header 16 16, length_slice (by omega)⟩ ∧
            context.entityDigest = ⟨slice header 32 32, length_slice (by omega)⟩ ∧
            context.revision = readBe header 64 8 ∧ context.slot = slot ∧
            context.generation = readBe header 72 8 ∧
            context.masterKeyEpoch = readBe header 80 4 from ?_)
        · rw [hok]
          rfl
        · refine ⟨?_, ?_, h₄.symm, ?_, h₅.symm, h₆.symm⟩
          · cases hid : context.storeId
            rw [hid] at h₂
            simp only [h₂]
          · cases hid : context.entityDigest
            rw [hid] at h₃
            simp only [h₃]
          · exact Option.some.inj ((FileSlot.fromTag_tag _).symm.trans
              ((congrArg FileSlot.fromTag h₁.symm).trans hslot))

/-- A header is its thirteen fields. -/
theorem eq_encodeHeader_iff {header : Bytes} {context : SecretEnvelopeContext} {nonce : Bytes}
    {plaintextLength : ℕ} (hlength : header.length = 128) (hnonce : nonce.length = 24)
    (hplain : plaintextLength < 2 ^ 64) :
    header = encodeHeader context nonce plaintextLength ↔
      header.take 8 = envelopeMagic ∧ readBe header 8 2 = envelopeFormatVersion ∧
      header.getD 10 0 = cipherXChaCha20Poly1305HkdfSha256 ∧
      readBe header 12 4 = envelopeHeaderBytes ∧ parseContext header = .ok context ∧
      slice header 84 24 = nonce ∧ readBe header 108 8 = plaintextLength ∧
      (header.drop 116).any (· != 0) = false := by
  have hvalid := context.valid
  have hrevision : context.revision < 256 ^ 8 := hvalid.revision_lt
  have hgeneration : context.generation < 256 ^ 8 := hvalid.generation_lt
  have hepoch : context.masterKeyEpoch < 256 ^ 4 := hvalid.epoch_lt
  have hreserved : header.drop 116 = List.replicate envelopeReservedBytes 0 ↔
      (header.drop 116).any (· != 0) = false := by
    constructor
    · intro h
      rw [h]
      rfl
    · exact eq_replicate_of_any (by rw [List.length_drop, hlength]; rfl)
  rw [parseContext_ok_iff hlength, ← hreserved]
  have hsplit : header = encodeHeader context nonce plaintextLength ↔
      header.drop 0 = encodeHeader context nonce plaintextLength := Iff.rfl
  rw [hsplit, encodeHeader, headerFields]
  simp only [List.flatten_cons, List.flatten_nil, List.append_nil]
  rw [drop_eq_append_iff (show envelopeMagic.length = 8 by decide +kernel),
    drop_eq_append_iff (length_beBytes 2 _), drop_eq_append_iff (List.length_singleton),
    drop_eq_append_iff (List.length_singleton), drop_eq_append_iff (length_beBytes 4 _),
    drop_eq_append_iff context.storeId.length_eq,
    drop_eq_append_iff context.entityDigest.length_eq, drop_eq_append_iff (length_beBytes 8 _),
    drop_eq_append_iff (length_beBytes 8 _), drop_eq_append_iff (length_beBytes 4 _),
    drop_eq_append_iff hnonce, drop_eq_append_iff (length_beBytes 8 _),
    slice_eq_beBytes_iff (by omega) (by decide), slice_eq_beBytes_iff (by omega) (by decide),
    slice_eq_beBytes_iff (by omega) hrevision, slice_eq_beBytes_iff (by omega) hgeneration,
    slice_eq_beBytes_iff (by omega) hepoch, slice_eq_beBytes_iff (by omega) hplain,
    slice_eq_singleton_iff (by omega), slice_eq_singleton_iff (by omega)]
  have hmagic : slice header 0 8 = header.take 8 := rfl
  rw [hmagic]
  tauto

/-- **`parseHeader` takes exactly the headers that are encoded**, in front of the bytes that they
announce. -/
theorem parseHeader_ok_iff {envelope : Bytes} {parsed : ParsedHeader} :
    parseHeader envelope = .ok parsed ↔
      parsed.nonce.length = 24 ∧
      parsed.header = encodeHeader parsed.context parsed.nonce parsed.plaintextLength ∧
      envelope.take 128 = parsed.header ∧
      minBundlePlaintextBytes ≤ parsed.plaintextLength ∧
      parsed.plaintextLength ≤ maxBundlePlaintextBytes ∧
      envelope.length = 128 + parsed.plaintextLength + 16 := by
  obtain ⟨header, context, nonce, plaintextLength⟩ := parsed
  constructor
  · intro h
    unfold parseHeader at h
    split_ifs at h with hbounds
    dsimp only at h
    split_ifs at h with hmagic hversion hcipher hreserved hsize
    · obtain ⟨-, -, h⟩ := bind_ok_iff.mp h
      nomatch h
    rw [not_or, Nat.not_lt, Nat.not_lt] at hbounds
    simp only [envelopeHeaderBytes, minBundlePlaintextBytes, envelopeTagBytes,
      maxBundlePlaintextBytes] at hbounds
    rw [not_not] at hmagic hversion hcipher
    rw [not_or, not_not] at hreserved
    obtain ⟨object, hobject, h⟩ := bind_ok_iff.mp h
    rw [not_or, not_or, Nat.not_lt, Nat.not_lt, not_not] at hsize
    obtain ⟨hmin, hmax, hlength⟩ := hsize
    have hheader : (envelope.take envelopeHeaderBytes).length = 128 := by
      rw [List.length_take, envelopeHeaderBytes]
      omega
    cases h
    refine ⟨length_slice (by omega), ?_, rfl, hmin, hmax, hlength.symm⟩
    exact (eq_encodeHeader_iff hheader (length_slice (by omega))
      (Nat.lt_of_le_of_lt hmax (by decide))).mpr ⟨hmagic, hversion, hcipher, hreserved.1, hobject,
        rfl, rfl, by simpa using hreserved.2⟩
  · rintro ⟨hnonce, hheader, htake, hmin, hmax, hlength⟩
    dsimp only at hnonce hheader htake hmin hmax hlength
    have hbody : (envelope.drop 128).length = plaintextLength + envelopeTagBytes := by
      rw [List.length_drop, hlength, envelopeTagBytes]
      omega
    have h := parseHeader_encode context hnonce plaintextLength hmin hmax hbody
    obtain rfl : header = encodeHeader context nonce plaintextLength := hheader
    have hjoin : encodeHeader context nonce plaintextLength ++ envelope.drop 128 = envelope := by
      rw [← htake, List.take_append_drop]
    rwa [hjoin] at h

theorem parseContextChecked_eq (width : PointerWidth) {header : Bytes}
    (hlength : header.length = 128) :
    parseContextChecked width header = refusing (parseContext header) := by
  have hstore : Uuid.fromSlice (slice header 16 16) =
      some ⟨slice header 16 16, length_slice (by omega)⟩ := dif_pos _
  have hdigest : Digest.fromSlice (slice header 32 32) =
      some ⟨slice header 32 32, length_slice (by omega)⟩ := dif_pos _
  have hlt : header.length < 2 ^ 32 := by omega
  unfold parseContextChecked parseContext
  rw [range_eq (by omega) (by omega), ok_bind, headD_slice (by omega)]
  cases FileSlot.fromTag (header.getD 11 0) with
  | none => rfl
  | some slot => ?_
  rw [range_eq (by omega) (by omega), range_eq (by omega) (by omega),
    readNumber_eq (by omega) hlt, readNumber_eq (by omega) hlt, readNumber_eq (by omega) hlt]
  simp only [Option.elim_some, refusing_ok, ok_bind, Nat.reduceSub, hstore, hdigest]
  generalize hresult : SecretEnvelopeContext.fromDigest
    ⟨slice header 16 16, length_slice (by omega)⟩ ⟨slice header 32 32, length_slice (by omega)⟩
    (readBe header 64 8) slot (readBe header 72 8) (readBe header 80 4) = result
  unfold require
  split_ifs with hrandom
  · rfl
  · rw [← hresult, SecretEnvelopeContext.fromDigest, dif_neg fun hv => hrandom hv.random]
    rfl

/-- No sum overflows and no range leaves the envelope. -/
theorem parseHeaderChecked_eq (width : PointerWidth) (envelope : Bytes) :
    parseHeaderChecked width envelope = refusing (parseHeader envelope) := by
  unfold parseHeaderChecked parseHeader
  rw [add_eq (by decide), ok_bind, add_eq (by decide), ok_bind]
  refine require_bind (by omega) fun hbounds => ?_
  obtain ⟨hmin, hmax⟩ := hbounds
  simp only [envelopeHeaderBytes, minBundlePlaintextBytes, envelopeTagBytes,
    maxBundlePlaintextBytes] at hmin hmax
  have hlength : envelope.length < 2 ^ 32 := by omega
  have hbytes : envelopeHeaderBytes = 128 := rfl
  have htake : slice envelope 0 envelopeHeaderBytes = envelope.take envelopeHeaderBytes := rfl
  rw [range_eq (by omega) (by omega), Nat.sub_zero, htake, ok_bind]
  have hheader : (envelope.take envelopeHeaderBytes).length = 128 := by
    rw [List.length_take]
    omega
  have hlt : (envelope.take envelopeHeaderBytes).length < 2 ^ 32 := by omega
  rw [range_eq (by omega) (by omega), ok_bind]
  refine require_bind Iff.rfl fun _ => ?_
  rw [readNumber_eq (by omega) hlt, ok_bind]
  refine require_bind Iff.rfl fun _ => ?_
  rw [range_eq (by omega) (by omega), ok_bind]
  refine require_bind (not_congr (slice_eq_singleton_iff (by omega)).symm) fun _ => ?_
  rw [readNumber_eq (by omega) hlt, ok_bind, ite_or]
  refine require_bind Iff.rfl fun _ => ?_
  rw [range_eq (by omega) le_rfl, ok_bind]
  refine require_bind ?_ fun _ => ?_
  · rw [slice_to_end]
    simp
  rw [parseContextChecked_eq width hheader]
  refine refusing_bind fun context _ => ?_
  rw [range_eq (by omega) (by omega), ok_bind, readNumber_eq (by omega) hlt, ok_bind]
  have hvalue : readBe (envelope.take envelopeHeaderBytes) 108 8 < 2 ^ 64 := by
    have h := beValue_lt (slice (envelope.take envelopeHeaderBytes) 108 8)
    rwa [length_slice (by omega)] at h
  -- A length that is too large for `usize` is too large for a bundle.
  have hlimit : maxBundlePlaintextBytes < width.usizeLimit := by cases width <;> decide
  by_cases husize : readBe (envelope.take envelopeHeaderBytes) 108 8 < width.usizeLimit
  · rw [require, if_pos husize, ok_bind, ite_or, ite_or, ← ite_or]
    refine require_bind (by omega) fun hbound => ?_
    have hsize' : readBe (envelope.take envelopeHeaderBytes) 108 8 ≤ 8 * 1024 * 1024 := hbound.2
    rw [add_eq (by omega), ok_bind, add_eq (by simp only [envelopeTagBytes]; omega), ok_bind]
    exact require_bind Iff.rfl fun _ => rfl
  · rw [require, if_neg husize, if_pos (.inr (.inl (by omega)))]
    rfl

/-- **The encodings are canonical.**  Whatever the input says of its lengths, no sum overflows and
no range leaves the buffer. -/
theorem encodings_canonical (width : PointerWidth) :
    (∀ plaintext bundle, SshSecretBundle.decodeChecked width plaintext = .ok bundle ↔
      bundle.encodeChecked width = .ok plaintext) ∧
    (∀ bundle : SshSecretBundle, SshSecretBundle.new bundle.privateKey bundle.publicKey
        bundle.certificate bundle.passphrase = .ok bundle ∧
      bundle.encodeChecked width = .ok bundle.encode ∧
      ∀ other, bundle.contentsMatch other = true ↔ other = bundle) ∧
    (∀ envelope parsed, parseHeaderChecked width envelope = .ok parsed ↔
      parsed.nonce.length = 24 ∧
      parsed.header = encodeHeader parsed.context parsed.nonce parsed.plaintextLength ∧
      envelope.take 128 = parsed.header ∧
      minBundlePlaintextBytes ≤ parsed.plaintextLength ∧
      parsed.plaintextLength ≤ maxBundlePlaintextBytes ∧
      envelope.length = 128 + parsed.plaintextLength + 16) ∧
    (∀ context : SecretEnvelopeContext, SecretEnvelopeContext.fromDigest context.storeId
      context.entityDigest context.revision context.slot context.generation
      context.masterKeyEpoch = .ok context) ∧
    (∀ input fault, SshSecretBundle.decodeChecked width input = .error fault ∨
      parseHeaderChecked width input = .error fault → ∃ code, fault = .refused code) := by
  refine ⟨fun plaintext bundle => ?_, fun bundle => ⟨bundle.new_fields,
    bundle.encodeChecked_eq width, fun other => bundle.contentsMatch_iff⟩, fun envelope parsed => ?_,
    fun context => context.fromDigest_fields, fun input fault hfault => ?_⟩
  · rw [SshSecretBundle.decodeChecked_eq, refusing_eq_ok_iff, SshSecretBundle.decode_ok_iff,
      SshSecretBundle.encodeChecked_eq]
    exact ⟨fun h => h ▸ rfl, fun h => Except.ok.inj h⟩
  · rw [parseHeaderChecked_eq, refusing_eq_ok_iff, parseHeader_ok_iff]
  · rw [SshSecretBundle.decodeChecked_eq, parseHeaderChecked_eq] at hfault
    exact hfault.elim refused_of_refusing refused_of_refusing

end Netcatty.Secret
