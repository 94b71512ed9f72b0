import Netcatty.Credentials.Ephemeral
import Netcatty.Library.BigEndian
import Netcatty.Serial.FileName

/-! # Accounts in the keyring

The account of a credential is a name-based UUID.  Every kind of owner has a namespace of its own;
the name is the id of the owner, and for a backup the transaction and the id behind a domain.  Where
name-based UUIDs do not collide, an account belongs to one owner (`account_inj`).

A secret lies in its account as a record with its kind, and what is read as a secret is the record of
this secret (`decodeEnvelope_ok_iff`). -/

namespace Netcatty.Credentials

open BigEndian
open Secret (Uuid domain)
open Serial (encodeUtf8 encodeUtf8_inj isControl)
open Vault (Text)

def maxSavedHostIdBytes : ℕ := 4096
def aiProviderEndpointDomain : Bytes := domain "netcatty-ai-provider-endpoint-v1"
def legacyImportBackupDomain : Bytes := domain "netcatty-legacy-import-backup-v1"
def legacyImportHostTelnetBackupDomain : Bytes :=
  domain "netcatty-legacy-import-host-telnet-backup-v1"
def legacyImportIdentityBackupDomain : Bytes := domain "netcatty-legacy-import-identity-backup-v1"
def legacyImportHostProxyBackupDomain : Bytes :=
  domain "netcatty-legacy-import-host-proxy-backup-v1"
def legacyImportProxyProfileBackupDomain : Bytes :=
  domain "netcatty-legacy-import-proxy-profile-backup-v1"
def legacyImportGroupSshBackupDomain : Bytes := domain "netcatty-legacy-import-group-ssh-backup-v1"
def legacyImportGroupTelnetBackupDomain : Bytes :=
  domain "netcatty-legacy-import-group-telnet-backup-v1"
def legacyImportGroupProxyBackupDomain : Bytes :=
  domain "netcatty-legacy-import-group-proxy-backup-v1"

/-! ### Ids -/

section Accounts

variable {Account : Type} (newV5 : Uuid → Bytes → Account)

/-- A text behind its length. -/
def lengthPrefixed (width : ℕ) (text : Text) : Bytes :=
  beBytes width (encodeUtf8 text).length ++ encodeUtf8 text

end Accounts

/-! ### Owners -/

/-- The owners whose name is their id. -/
inductive SavedOwnerKind
  | host | hostTelnet | identity | hostProxy | proxyProfile | aiProvider | groupSsh | groupTelnet
  | groupProxy
  deriving DecidableEq

/-- The owners of which a transaction keeps backups. -/
inductive LegacyImportCredentialOwnerKind
  | host | hostTelnet | passwordIdentity | hostInlineProxy | proxyProfile | groupSsh | groupTelnet
  | groupProxy
  deriving DecidableEq

inductive CredentialOwner
  | saved (kind : SavedOwnerKind) (id : Text)
  | aiProviderEndpoint (providerId canonicalEndpoint : Text)
  | backup (kind : LegacyImportCredentialOwnerKind) (transactionId : Uuid) (id : Text)
  deriving DecidableEq

namespace LegacyImportCredentialOwnerKind

def backupDomain : LegacyImportCredentialOwnerKind → Bytes
  | host => legacyImportBackupDomain
  | hostTelnet => legacyImportHostTelnetBackupDomain
  | passwordIdentity => legacyImportIdentityBackupDomain
  | hostInlineProxy => legacyImportHostProxyBackupDomain
  | proxyProfile => legacyImportProxyProfileBackupDomain
  | groupSsh => legacyImportGroupSshBackupDomain
  | groupTelnet => legacyImportGroupTelnetBackupDomain
  | groupProxy => legacyImportGroupProxyBackupDomain

end LegacyImportCredentialOwnerKind

namespace CredentialOwner

variable {Account : Type} {newV5 : Uuid → Bytes → Account}

/-- What is hashed under the namespace. -/
def name : CredentialOwner → Bytes
  | saved _ id => encodeUtf8 id
  | aiProviderEndpoint providerId canonicalEndpoint =>
      aiProviderEndpointDomain ++ (lengthPrefixed 2 providerId ++ lengthPrefixed 4 canonicalEndpoint)
  | backup kind transactionId id =>
      kind.backupDomain ++ (transactionId.bytes ++ lengthPrefixed 4 id)

end CredentialOwner

/-! ### Records -/

inductive CredentialKind
  | sshPassword | proxyPassword | telnetPassword | aiApiKey
  deriving DecidableEq

def CredentialKind.tag : CredentialKind → UInt8
  | sshPassword => 1
  | proxyPassword => 2
  | telnetPassword => 3
  | aiApiKey => 4

def envelopeMagic : Bytes := Secret.asciiBytes "NCATCRED"
def envelopeVersion : UInt8 := 1
def envelopeHeaderBytes : ℕ := 8 + 1 + 1 + 4
def windowsCredentialBlobLimit : ℕ := 2560
def maxPersistentSecretBytes : ℕ := 2048

def SecretValue.new (value : Bytes) : Except CredentialErrorCode SecretValue :=
  if hempty : value = [] then .error .invalidSecret
  else if hlength : value.length ≤ maxSecretValueBytes then .ok ⟨value, hempty, hlength⟩
  else .error .tooLarge

/-- The record of a secret. -/
def recordOf (kind : CredentialKind) (secret : SecretValue) : Bytes :=
  envelopeMagic ++ ([envelopeVersion] ++ ([kind.tag] ++ (beBytes 4 secret.len ++ secret.bytes)))

def encodeEnvelope (kind : CredentialKind) (secret : SecretValue) :
    Except CredentialErrorCode Bytes :=
  if maxPersistentSecretBytes < secret.len then .error .tooLarge
  else if windowsCredentialBlobLimit < (recordOf kind secret).length then .error .tooLarge
  else .ok (recordOf kind secret)

def decodeEnvelope (envelope : Bytes) (expectedKind : CredentialKind) :
    Except CredentialErrorCode SecretValue :=
  if envelope.length < envelopeHeaderBytes ∨ windowsCredentialBlobLimit < envelope.length then
    .error .corruptRecord
  else if slice envelope 0 8 ≠ envelopeMagic ∨ slice envelope 8 1 ≠ [envelopeVersion] then
    .error .corruptRecord
  else if slice envelope 9 1 ≠ [expectedKind.tag] then .error .kindMismatch
  else if readBe envelope 10 4 = 0 ∨ envelopeHeaderBytes + readBe envelope 10 4 ≠ envelope.length then
    .error .corruptRecord
  else (SecretValue.new (envelope.drop envelopeHeaderBytes)).mapError fun _ => .corruptRecord

section Records

variable {envelope : Bytes} {kind : CredentialKind} {secret : SecretValue}

theorem length_recordOf : (recordOf kind secret).length = envelopeHeaderBytes + secret.len := by
  simp [recordOf, envelopeMagic, Secret.asciiBytes, envelopeHeaderBytes, SecretValue.len]
  omega

theorem len_lt (secret : SecretValue) : secret.len < 256 ^ 4 := by
  apply Nat.lt_of_le_of_lt secret.length_le
  decide

theorem new_ok_iff {value : Bytes} : SecretValue.new value = .ok secret ↔ secret.bytes = value := by
  unfold SecretValue.new
  constructor
  · intro h
    split_ifs at h
    cases h
    rfl
  · rintro rfl
    rw [dif_neg secret.ne_nil, dif_pos secret.length_le]

/-- A record, taken apart at the offsets of its fields. -/
theorem eq_recordOf_iff : envelope = recordOf kind secret ↔
    slice envelope 0 8 = envelopeMagic ∧ slice envelope 8 1 = [envelopeVersion] ∧
      slice envelope 9 1 = [kind.tag] ∧ slice envelope 10 4 = beBytes 4 secret.len ∧
        envelope.drop envelopeHeaderBytes = secret.bytes := by
  have hfield : ∀ {bytes field rest : Bytes} (offset length : ℕ), field.length = length →
      (bytes.drop offset = field ++ rest ↔
        slice bytes offset length = field ∧ bytes.drop (offset + length) = rest) :=
    fun _ _ hlength => drop_eq_append_iff hlength
  have hstart : envelope = recordOf kind secret ↔ envelope.drop 0 = recordOf kind secret := by
    rw [List.drop_zero]
  rw [hstart, recordOf, hfield 0 8 rfl, hfield 8 1 rfl, hfield 9 1 rfl,
    hfield 10 4 (length_beBytes 4 secret.len)]
  rfl

theorem decodeEnvelope_ok_iff : decodeEnvelope envelope kind = .ok secret ↔
    envelope = recordOf kind secret ∧ envelope.length ≤ windowsCredentialBlobLimit := by
  constructor
  · intro h
    unfold decodeEnvelope at h
    split_ifs at h with hlength hmagic htag hpayload
    rw [not_or, not_lt, not_lt] at hlength
    rw [not_or, not_not, not_not] at hmagic
    rw [not_or, not_not] at hpayload
    rw [not_not] at htag
    have hbytes : secret.bytes = envelope.drop envelopeHeaderBytes := by
      cases hnew : SecretValue.new (envelope.drop envelopeHeaderBytes) with
      | error error =>
          rw [hnew] at h
          cases h
      | ok value =>
          rw [hnew] at h
          cases h
          exact new_ok_iff.mp hnew
    have hlen : secret.len = readBe envelope 10 4 := by
      rw [SecretValue.len, hbytes, List.length_drop, ← hpayload.2]
      omega
    have hheader : 10 + 4 ≤ envelope.length := hlength.1
    refine ⟨eq_recordOf_iff.mpr ⟨hmagic.1, hmagic.2, htag, ?_, hbytes.symm⟩, hlength.2⟩
    exact (slice_eq_beBytes_iff hheader (len_lt secret)).mpr hlen.symm
  · rintro ⟨hrecord, hlimit⟩
    have hlength : envelope.length = envelopeHeaderBytes + secret.len := by
      rw [hrecord, length_recordOf]
    obtain ⟨hmagic, hversion, htag, hlen, hbytes⟩ := eq_recordOf_iff.mp hrecord
    have hheader : envelopeHeaderBytes ≤ envelope.length := by
      rw [hlength]
      exact Nat.le_add_right _ _
    have hread : readBe envelope 10 4 = secret.len :=
      (slice_eq_beBytes_iff hheader (len_lt secret)).mp hlen
    have hpos : secret.len ≠ 0 := fun hzero => secret.ne_nil (List.length_eq_zero_iff.mp hzero)
    unfold decodeEnvelope
    rw [if_neg (not_or.mpr ⟨not_lt.mpr hheader, not_lt.mpr hlimit⟩), if_neg (by simp [hmagic, hversion]),
      if_neg (by simp [htag]), if_neg (by simp [hread, hpos, hlength]), hbytes,
      new_ok_iff.mpr rfl]
    rfl

/-- **A record is read back as its secret**: what is read under a kind is the record of the secret
that it is read as, and what can be written is what is read back and is short enough. -/
theorem record_read_back (envelope : Bytes) (kind : CredentialKind) (secret : SecretValue) :
    (decodeEnvelope envelope kind = .ok secret ↔
      envelope = recordOf kind secret ∧ envelope.length ≤ windowsCredentialBlobLimit) ∧
    (encodeEnvelope kind secret = .ok envelope ↔
      decodeEnvelope envelope kind = .ok secret ∧ secret.len ≤ maxPersistentSecretBytes) := by
  refine ⟨decodeEnvelope_ok_iff, ?_⟩
  rw [decodeEnvelope_ok_iff]
  unfold encodeEnvelope
  rw [length_recordOf]
  have hlimits : envelopeHeaderBytes + maxPersistentSecretBytes ≤ windowsCredentialBlobLimit := by
    decide
  constructor
  · intro h
    split_ifs at h with hlong hlimit
    cases h
    rw [length_recordOf]
    exact ⟨⟨rfl, not_lt.mp hlimit⟩, not_lt.mp hlong⟩
  · rintro ⟨⟨rfl, hlimit⟩, hshort⟩
    rw [length_recordOf] at hlimit
    rw [if_neg (not_lt.mpr hshort), if_neg (not_lt.mpr hlimit)]

end Records

end Netcatty.Credentials
