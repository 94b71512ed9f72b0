import Mathlib.Data.Fintype.Basic
import Netcatty.Library.BigEndian

/-! # Secret bundles

A bundle holds a private key and optional further material, each of them bounded.  A value of
`SshSecretBundle` is one that `SshSecretBundle::new` returns: the optional fields are not empty.
Its encoding is a header with the lengths of the fields, and then the fields; it is decoded to the
bundle itself (`decode_encode`). -/

namespace Netcatty.Secret

open BigEndian

abbrev Bytes := List UInt8

def maxPrivateKeyBytes : ℕ := 4 * 1024 * 1024
def maxPublicKeyBytes : ℕ := 1 * 1024 * 1024
def maxCertificateBytes : ℕ := 1 * 1024 * 1024
def maxPassphraseBytes : ℕ := 64 * 1024
def maxBundlePlaintextBytes : ℕ := 8 * 1024 * 1024

def plaintextFormatVersion : ℕ := 1
def plaintextHeaderBytes : ℕ := 32
def plaintextReservedBytes : ℕ := 4

/-- The bytes of an ASCII literal. -/
def asciiBytes (s : String) : Bytes := s.toList.map fun c => c.toUInt8

def plaintextMagic : Bytes := asciiBytes "NCATSSH1"

inductive SecretEnvelopeErrorCode
  | invalidInput | tooLarge | invalidEnvelope | unsupportedVersion | unsupportedCipher
  deriving DecidableEq, Repr

def optionalLen (value : Option Bytes) : ℕ := (value.map List.length).getD 0

/-- An optional field as it is kept: not empty, and bounded. -/
def IsOptionalField (maximum : ℕ) (value : Option Bytes) : Prop :=
  ∀ bytes, value = some bytes → bytes ≠ [] ∧ bytes.length ≤ maximum

/-- What `new` checks. -/
structure ValidBundle (privateKey : Bytes) (publicKey certificate passphrase : Option Bytes) :
    Prop where
  privateKey_ne : privateKey ≠ []
  privateKey_le : privateKey.length ≤ maxPrivateKeyBytes
  publicKey : IsOptionalField maxPublicKeyBytes publicKey
  certificate : IsOptionalField maxCertificateBytes certificate
  passphrase : IsOptionalField maxPassphraseBytes passphrase

structure SshSecretBundle where
  privateKey : Bytes
  publicKey : Option Bytes
  certificate : Option Bytes
  passphrase : Option Bytes
  valid : ValidBundle privateKey publicKey certificate passphrase
  deriving DecidableEq

/-! ### Construction -/

/-- An empty value is none. -/
def normalizeOptional (value : Option Bytes) : Option Bytes := value.filter fun v => !v.isEmpty

def validateRequiredLen (length maximum : ℕ) : Except SecretEnvelopeErrorCode Unit :=
  if length = 0 then .error .invalidInput
  else if maximum < length then .error .tooLarge
  else .ok ()

def validateOptionalLen (length maximum : ℕ) : Except SecretEnvelopeErrorCode Unit :=
  if length = 0 then .ok () else if maximum < length then .error .tooLarge else .ok ()

def encodedLength (privateLen publicLen certificateLen passphraseLen : ℕ) : ℕ :=
  plaintextHeaderBytes + privateLen + publicLen + certificateLen + passphraseLen

theorem validateRequiredLen_ok_iff {length maximum : ℕ} :
    validateRequiredLen length maximum = .ok () ↔ length ≠ 0 ∧ length ≤ maximum := by
  unfold validateRequiredLen
  by_cases h₀ : length = 0
  · simp [h₀]
  · by_cases h₁ : maximum < length
    · simp [h₀, h₁]
    · simp [h₀, h₁, Nat.not_lt.mp h₁]

theorem validateOptionalLen_ok_iff {length maximum : ℕ} :
    validateOptionalLen length maximum = .ok () ↔ length ≤ maximum := by
  unfold validateOptionalLen
  by_cases h₀ : length = 0
  · simp [h₀]
  · by_cases h₁ : maximum < length
    · simp [h₀, h₁]
    · simp [h₀, h₁, Nat.not_lt.mp h₁]

theorem normalizeOptional_ne {value : Option Bytes} {bytes : Bytes}
    (h : normalizeOptional value = some bytes) : bytes ≠ [] := by
  simpa using (Option.filter_eq_some_iff.mp h).2

/-- The check of the private key, which returns what it has found. -/
def validateRequired (value : Bytes) (maximum : ℕ) :
    Except SecretEnvelopeErrorCode (PLift (value ≠ [] ∧ value.length ≤ maximum)) :=
  if h₀ : value = [] then .error .invalidInput
  else if h : maximum < value.length then .error .tooLarge
  else .ok ⟨h₀, Nat.not_lt.mp h⟩

/-- The check of an optional value, which returns what it has found. -/
def validateOptional (value : Option Bytes) (maximum : ℕ) :
    Except SecretEnvelopeErrorCode (PLift (optionalLen value ≤ maximum)) :=
  if h : maximum < optionalLen value then .error .tooLarge else .ok ⟨Nat.not_lt.mp h⟩

theorem isOptionalField_of_le {maximum : ℕ} {value : Option Bytes}
    (h : optionalLen (normalizeOptional value) ≤ maximum) :
    IsOptionalField maximum (normalizeOptional value) := fun bytes hbytes => by
  rw [hbytes] at h
  exact ⟨normalizeOptional_ne hbytes, h⟩

/-- `SshSecretBundle::new`. -/
def SshSecretBundle.new (privateKey : Bytes) (publicKey certificate passphrase : Option Bytes) :
    Except SecretEnvelopeErrorCode SshSecretBundle := do
  let ⟨hprivate⟩ ← validateRequired privateKey maxPrivateKeyBytes
  let ⟨hpublic⟩ ← validateOptional (normalizeOptional publicKey) maxPublicKeyBytes
  let ⟨hcertificate⟩ ← validateOptional (normalizeOptional certificate) maxCertificateBytes
  let ⟨hpassphrase⟩ ← validateOptional (normalizeOptional passphrase) maxPassphraseBytes
  if maxBundlePlaintextBytes < encodedLength privateKey.length
      (optionalLen (normalizeOptional publicKey)) (optionalLen (normalizeOptional certificate))
      (optionalLen (normalizeOptional passphrase)) then .error .tooLarge
  else .ok ⟨privateKey, normalizeOptional publicKey, normalizeOptional certificate,
    normalizeOptional passphrase, hprivate.1, hprivate.2, isOptionalField_of_le hpublic,
    isOptionalField_of_le hcertificate, isOptionalField_of_le hpassphrase⟩

/-! ### Encoding -/

namespace SshSecretBundle

def encodedLen (bundle : SshSecretBundle) : ℕ :=
  encodedLength bundle.privateKey.length (optionalLen bundle.publicKey)
    (optionalLen bundle.certificate) (optionalLen bundle.passphrase)

/-- The header with the lengths of the fields, and the fields. -/
def fields (bundle : SshSecretBundle) : List Bytes :=
  [plaintextMagic, beBytes 2 plaintextFormatVersion, beBytes 2 plaintextHeaderBytes,
    beBytes 4 bundle.privateKey.length, beBytes 4 (optionalLen bundle.publicKey),
    beBytes 4 (optionalLen bundle.certificate), beBytes 4 (optionalLen bundle.passphrase),
    List.replicate plaintextReservedBytes 0, bundle.privateKey, bundle.publicKey.getD [],
    bundle.certificate.getD [], bundle.passphrase.getD []]

def encode (bundle : SshSecretBundle) : Bytes := bundle.fields.flatten

/-- `contents_match` compares the fields. -/
def contentsMatch (bundle other : SshSecretBundle) : Bool :=
  bundle.privateKey == other.privateKey && bundle.publicKey == other.publicKey &&
    bundle.certificate == other.certificate && bundle.passphrase == other.passphrase

/-- A field of length zero is none. -/
def takeOptionalField (plaintext : Bytes) (cursor length : ℕ) : Option Bytes :=
  if length = 0 then none else some (slice plaintext cursor length)

def decode (plaintext : Bytes) : Except SecretEnvelopeErrorCode SshSecretBundle :=
  if plaintext.length < plaintextHeaderBytes ∨ maxBundlePlaintextBytes < plaintext.length then
    .error .invalidEnvelope
  else if plaintext.take 8 ≠ plaintextMagic then .error .invalidEnvelope
  else if readBe plaintext 8 2 ≠ plaintextFormatVersion then .error .unsupportedVersion
  else if readBe plaintext 10 2 ≠ plaintextHeaderBytes ∨
      (slice plaintext 28 4).any (· != 0) then .error .invalidEnvelope
  else do
    let privateLen := readBe plaintext 12 4
    let publicLen := readBe plaintext 16 4
    let certificateLen := readBe plaintext 20 4
    let passphraseLen := readBe plaintext 24 4
    validateRequiredLen privateLen maxPrivateKeyBytes
    validateOptionalLen publicLen maxPublicKeyBytes
    validateOptionalLen certificateLen maxCertificateBytes
    validateOptionalLen passphraseLen maxPassphraseBytes
    if encodedLength privateLen publicLen certificateLen passphraseLen ≠ plaintext.length then
      .error .invalidEnvelope
    else
      let privateKey := slice plaintext 32 privateLen
      let publicKey := takeOptionalField plaintext (32 + privateLen) publicLen
      let certificate := takeOptionalField plaintext (32 + privateLen + publicLen) certificateLen
      let passphrase :=
        takeOptionalField plaintext (32 + privateLen + publicLen + certificateLen) passphraseLen
      (new privateKey publicKey certificate passphrase).mapError fun _ => .invalidEnvelope

/-! ### What is encoded is decoded -/

theorem length_getD (value : Option Bytes) : (value.getD []).length = optionalLen value := by
  cases value <;> rfl

theorem map_length_fields (bundle : SshSecretBundle) :
    bundle.fields.map List.length =
      [8, 2, 2, 4, 4, 4, 4, 4, bundle.privateKey.length, optionalLen bundle.publicKey,
        optionalLen bundle.certificate, optionalLen bundle.passphrase] := by
  simp only [fields, List.map_cons, List.map_nil, length_beBytes, length_getD,
    List.length_replicate]
  rfl

theorem length_encode (bundle : SshSecretBundle) : bundle.encode.length = bundle.encodedLen := by
  rw [encode, List.length_flatten, map_length_fields]
  simp only [encodedLen, encodedLength, plaintextHeaderBytes, List.sum_cons, List.sum_nil]
  omega

theorem optionalLen_le {maximum : ℕ} {value : Option Bytes} (h : IsOptionalField maximum value) :
    optionalLen value ≤ maximum := by
  cases value with
  | none => exact Nat.zero_le _
  | some bytes => exact (h bytes rfl).2

theorem normalizeOptional_eq {maximum : ℕ} {value : Option Bytes}
    (h : IsOptionalField maximum value) : normalizeOptional value = value := by
  cases value with
  | none => rfl
  | some bytes =>
      have hne := (h bytes rfl).1
      simp [normalizeOptional, hne]

theorem validateOptional_ok {maximum : ℕ} {value : Option Bytes}
    (h : IsOptionalField maximum value) :
    validateOptional (normalizeOptional value) maximum =
      .ok ⟨by rw [normalizeOptional_eq h]; exact optionalLen_le h⟩ := by
  unfold validateOptional
  rw [dif_neg]
  rw [normalizeOptional_eq h]
  exact Nat.not_lt.mpr (optionalLen_le h)

/-- The fields of a bundle are what `new` takes. -/
theorem new_fields (bundle : SshSecretBundle) :
    new bundle.privateKey bundle.publicKey bundle.certificate bundle.passphrase = .ok bundle := by
  obtain ⟨privateKey, publicKey, certificate, passphrase, valid⟩ := bundle
  have hprivate : validateRequired privateKey maxPrivateKeyBytes =
      .ok ⟨valid.privateKey_ne, valid.privateKey_le⟩ := by
    unfold validateRequired
    rw [dif_neg valid.privateKey_ne, dif_neg (Nat.not_lt.mpr valid.privateKey_le)]
  have hlen : ¬ maxBundlePlaintextBytes < encodedLength privateKey.length (optionalLen publicKey)
      (optionalLen certificate) (optionalLen passphrase) := by
    have := optionalLen_le valid.publicKey
    have := optionalLen_le valid.certificate
    have := optionalLen_le valid.passphrase
    have := valid.privateKey_le
    simp only [maxPublicKeyBytes, maxCertificateBytes, maxPassphraseBytes, maxPrivateKeyBytes,
      maxBundlePlaintextBytes, encodedLength, plaintextHeaderBytes] at *
    omega
  unfold new
  simp only [hprivate, validateOptional_ok valid.publicKey, validateOptional_ok valid.certificate,
    validateOptional_ok valid.passphrase, bind, Except.bind, normalizeOptional_eq valid.publicKey,
    normalizeOptional_eq valid.certificate, normalizeOptional_eq valid.passphrase, if_neg hlen]

/-- What the header of an encoded bundle says. -/
theorem read_encode (bundle : SshSecretBundle) :
    slice bundle.encode 0 8 = plaintextMagic ∧
    readBe bundle.encode 8 2 = plaintextFormatVersion ∧
    readBe bundle.encode 10 2 = plaintextHeaderBytes ∧
    readBe bundle.encode 12 4 = bundle.privateKey.length ∧
    readBe bundle.encode 16 4 = optionalLen bundle.publicKey ∧
    readBe bundle.encode 20 4 = optionalLen bundle.certificate ∧
    readBe bundle.encode 24 4 = optionalLen bundle.passphrase ∧
    slice bundle.encode 28 4 = List.replicate plaintextReservedBytes 0 := by
  have hsum : ∀ i, ((bundle.fields.take i).map List.length).sum =
      (([8, 2, 2, 4, 4, 4, 4, 4, bundle.privateKey.length, optionalLen bundle.publicKey,
        optionalLen bundle.certificate, optionalLen bundle.passphrase] : List ℕ).take i).sum := by
    intro i
    rw [List.map_take, map_length_fields]
  have hprivate := bundle.valid.privateKey_le
  have hpublic := optionalLen_le bundle.valid.publicKey
  have hcertificate := optionalLen_le bundle.valid.certificate
  have hpassphrase := optionalLen_le bundle.valid.passphrase
  simp only [maxPublicKeyBytes, maxCertificateBytes, maxPassphraseBytes, maxPrivateKeyBytes]
    at hprivate hpublic hcertificate hpassphrase
  have hlen : bundle.fields.length = 12 := rfl
  refine ⟨?_, ?_, ?_, ?_, ?_, ?_, ?_, ?_⟩
  · exact slice_flatten bundle.fields (i := 0) (by omega) (by rw [hsum]; rfl) rfl
  · exact readBe_flatten bundle.fields (i := 1) (by omega) (by rw [hsum]; rfl) rfl (by decide)
  · exact readBe_flatten bundle.fields (i := 2) (by omega) (by rw [hsum]; rfl) rfl (by decide)
  · exact readBe_flatten bundle.fields (i := 3) (by omega) (by rw [hsum]; rfl) rfl (by omega)
  · exact readBe_flatten bundle.fields (i := 4) (by omega) (by rw [hsum]; rfl) rfl (by omega)
  · exact readBe_flatten bundle.fields (i := 5) (by omega) (by rw [hsum]; rfl) rfl (by omega)
  · exact readBe_flatten bundle.fields (i := 6) (by omega) (by rw [hsum]; rfl) rfl (by omega)
  · exact slice_flatten bundle.fields (i := 7) (by omega) (by rw [hsum]; rfl) rfl

/-- The material behind the header. -/
theorem slice_encode (bundle : SshSecretBundle) :
    slice bundle.encode 32 bundle.privateKey.length = bundle.privateKey ∧
    slice bundle.encode (32 + bundle.privateKey.length) (optionalLen bundle.publicKey) =
      bundle.publicKey.getD [] ∧
    slice bundle.encode (32 + bundle.privateKey.length + optionalLen bundle.publicKey)
      (optionalLen bundle.certificate) = bundle.certificate.getD [] ∧
    slice bundle.encode (32 + bundle.privateKey.length + optionalLen bundle.publicKey +
      optionalLen bundle.certificate) (optionalLen bundle.passphrase) =
        bundle.passphrase.getD [] := by
  have hsum : ∀ i, ((bundle.fields.take i).map List.length).sum =
      (([8, 2, 2, 4, 4, 4, 4, 4, bundle.privateKey.length, optionalLen bundle.publicKey,
        optionalLen bundle.certificate, optionalLen bundle.passphrase] : List ℕ).take i).sum := by
    intro i
    rw [List.map_take, map_length_fields]
  have hlen : bundle.fields.length = 12 := rfl
  refine ⟨?_, ?_, ?_, ?_⟩
  · exact slice_flatten bundle.fields (i := 8) (by omega) (by rw [hsum]; rfl) rfl
  · exact slice_flatten bundle.fields (i := 9) (by omega)
      (by rw [hsum]; simp only [List.take_succ_cons, List.take_zero, List.sum_cons, List.sum_nil]
          omega) (length_getD _).symm
  · exact slice_flatten bundle.fields (i := 10) (by omega)
      (by rw [hsum]; simp only [List.take_succ_cons, List.take_zero, List.sum_cons, List.sum_nil]
          omega) (length_getD _).symm
  · exact slice_flatten bundle.fields (i := 11) (by omega)
      (by rw [hsum]; simp only [List.take_succ_cons, List.take_zero, List.sum_cons, List.sum_nil]
          omega) (length_getD _).symm

theorem takeOptionalField_eq {maximum : ℕ} {value : Option Bytes}
    (h : IsOptionalField maximum value) {plaintext : Bytes} {cursor : ℕ}
    (hslice : slice plaintext cursor (optionalLen value) = value.getD []) :
    takeOptionalField plaintext cursor (optionalLen value) = value := by
  unfold takeOptionalField
  cases value with
  | none => rfl
  | some bytes =>
      have hne : optionalLen (some bytes) ≠ 0 := fun h0 =>
        (h bytes rfl).1 (List.length_eq_zero_iff.mp h0)
      rw [if_neg hne, hslice]
      rfl

/-- **An encoded bundle is decoded to itself.** -/
theorem decode_encode (bundle : SshSecretBundle) : decode bundle.encode = .ok bundle := by
  obtain ⟨hmagic, hversion, hheader, hprivate, hpublic, hcertificate, hpassphrase, hreserved⟩ :=
    bundle.read_encode
  obtain ⟨hs₁, hs₂, hs₃, hs₄⟩ := bundle.slice_encode
  have hlen := bundle.length_encode
  have hv := bundle.valid
  have h₁ : validateRequiredLen bundle.privateKey.length maxPrivateKeyBytes = .ok () :=
    validateRequiredLen_ok_iff.mpr
      ⟨fun h => hv.privateKey_ne (List.length_eq_zero_iff.mp h), hv.privateKey_le⟩
  have h₂ := validateOptionalLen_ok_iff.mpr (optionalLen_le hv.publicKey)
  have h₃ := validateOptionalLen_ok_iff.mpr (optionalLen_le hv.certificate)
  have h₄ := validateOptionalLen_ok_iff.mpr (optionalLen_le hv.passphrase)
  have hbounds : ¬ (bundle.encode.length < plaintextHeaderBytes ∨
      maxBundlePlaintextBytes < bundle.encode.length) := by
    have := optionalLen_le hv.publicKey
    have := optionalLen_le hv.certificate
    have := optionalLen_le hv.passphrase
    have := hv.privateKey_le
    simp only [maxPublicKeyBytes, maxCertificateBytes, maxPassphraseBytes, maxPrivateKeyBytes,
      maxBundlePlaintextBytes, encodedLen, encodedLength, plaintextHeaderBytes] at *
    omega
  have htake : bundle.encode.take 8 = plaintextMagic := hmagic
  have hzero : (List.replicate plaintextReservedBytes (0 : UInt8)).any (· != 0) = false := rfl
  unfold decode
  rw [if_neg hbounds, if_neg (not_not.mpr htake), if_neg (not_not.mpr hversion), hreserved, hzero,
    if_neg (by simpa using hheader)]
  simp only [hprivate, hpublic, hcertificate, hpassphrase, h₁, h₂, h₃, h₄, bind, Except.bind,
    hs₁, takeOptionalField_eq hv.publicKey hs₂, takeOptionalField_eq hv.certificate hs₃,
    takeOptionalField_eq hv.passphrase hs₄, new_fields]
  have hlen' : encodedLength bundle.privateKey.length (optionalLen bundle.publicKey)
      (optionalLen bundle.certificate) (optionalLen bundle.passphrase) = bundle.encode.length :=
    hlen.symm
  rw [if_neg (not_not.mpr hlen')]
  rfl

end SshSecretBundle

end Netcatty.Secret
