import Netcatty.Serial.FileName
import Netcatty.Ssh.TransferPath
import Netcatty.SysManager.Inventory

/-! # Known host keys

The key that a server shows is compared with the entries for its host and port by their
fingerprints.  `classifyHostKey_trusted_iff` says which keys are trusted.  The fingerprint of a
public key in the format of OpenSSH is a parameter. -/

namespace Netcatty.Ssh

open Serial (trim)
open SysManager (parseUnsigned)
open Vault (eqIgnoreAsciiCase stripPrefix)

structure KnownHost where
  id : Text
  hostname : Text
  port : Option ℕ
  keyType : Text
  fingerprint : Option Text
  publicKey : Option Text

structure LiveHostKey where
  keyType : Text
  fingerprint : Text
  publicKey : Text

inductive HostKeyStatus
  | trusted
  | changed
  | unknown
  deriving DecidableEq, Repr

structure HostKeyClassification where
  status : HostKeyStatus
  knownHostId : Option Text
  expectedFingerprint : Option Text

def toAsciiLowercase (text : Text) : Text := text.map Char.toLower

def normalizeFingerprint (value : Text) : Text :=
  let value := trim value
  let value := ((stripPrefix "SHA256:" value).or (stripPrefix "sha256:" value)).getD value
  value.rdropWhile (· = '=')

/-! ### The entries for a host -/

/-- `split_once("]:")`. -/
def splitBracket : Text → Option (Text × Text)
  | ']' :: ':' :: rest => some ([], rest)
  | c :: rest => (splitBracket rest).map fun (hostname, portText) => (c :: hostname, portText)
  | [] => none

def parseKnownHostPattern (value : Text) : Text × Option ℕ :=
  let first := (trim value).takeWhile (· ≠ ',')
  match (stripPrefix "[" first).bind splitBracket with
  | some (hostname, portText) => (toAsciiLowercase (trim hostname), parseUnsigned 16 portText)
  | none => (toAsciiLowercase first, none)

def matchesHostAndPort (known : KnownHost) (hostname : Text) (port : ℕ) : Bool :=
  let (knownHostname, embeddedPort) := parseKnownHostPattern known.hostname
  if knownHostname.isEmpty || knownHostname = "(hashed)".toList then false
  else
    eqIgnoreAsciiCase knownHostname (trim hostname) &&
      (known.port.or embeddedPort).getD 22 = port

section Fingerprints

-- `PublicKey::from_openssh`, with the SHA-256 fingerprint of what it reads
variable (opensshFingerprint : Text → Option Text)

def knownFingerprint (known : KnownHost) : Option Text :=
  let explicit := (known.fingerprint.map normalizeFingerprint).filter (!·.isEmpty)
  if explicit.isSome then explicit
  else
    (known.publicKey.map trim).bind fun publicKey =>
      if (stripPrefix "sha256:" (toAsciiLowercase publicKey)).isSome then
        let normalized := normalizeFingerprint publicKey
        if normalized.isEmpty then none else some normalized
      else (opensshFingerprint publicKey).map normalizeFingerprint

/-- The entries for a host and port, with their fingerprints. -/
def hostKeyCandidates (knownHosts : List KnownHost) (hostname : Text) (port : ℕ) :
    List (KnownHost × Text) :=
  (knownHosts.filter fun known => matchesHostAndPort known hostname port).filterMap fun known =>
    (knownFingerprint opensshFingerprint known).map fun fingerprint => (known, fingerprint)

def classifyHostKey (knownHosts : List KnownHost) (hostname : Text) (port : ℕ)
    (live : LiveHostKey) : HostKeyClassification :=
  let candidates := hostKeyCandidates opensshFingerprint knownHosts hostname port
  let liveFingerprint := normalizeFingerprint live.fingerprint
  match candidates.find? fun candidate => candidate.2 = liveFingerprint with
  | some (known, _) => ⟨.trusted, some known.id, none⟩
  | none =>
      let keyType := trim live.keyType
      if keyType.isEmpty || keyType = "unknown".toList then ⟨.unknown, none, none⟩
      else
        match candidates.find? fun candidate => trim candidate.1.keyType = keyType with
        | some (known, fingerprint) => ⟨.changed, some known.id, some fingerprint⟩
        | none => ⟨.unknown, none, none⟩

variable {opensshFingerprint} {knownHosts : List KnownHost} {hostname : Text} {port : ℕ}
  {live : LiveHostKey}

theorem mem_hostKeyCandidates {known : KnownHost} {fingerprint : Text} :
    (known, fingerprint) ∈ hostKeyCandidates opensshFingerprint knownHosts hostname port ↔
      known ∈ knownHosts ∧ matchesHostAndPort known hostname port = true ∧
        knownFingerprint opensshFingerprint known = some fingerprint := by
  simp only [hostKeyCandidates, List.mem_filterMap, List.mem_filter, Option.map_eq_some_iff,
    Prod.mk.injEq]
  constructor
  · rintro ⟨known', ⟨hmem, hmatches⟩, fingerprint', hfingerprint, rfl, rfl⟩
    exact ⟨hmem, hmatches, hfingerprint⟩
  · rintro ⟨hmem, hmatches, hfingerprint⟩
    exact ⟨known, ⟨hmem, hmatches⟩, fingerprint, hfingerprint, rfl, rfl⟩

/-- **A key is trusted** exactly if an entry for the host and port has its fingerprint. -/
theorem classifyHostKey_trusted_iff :
    (classifyHostKey opensshFingerprint knownHosts hostname port live).status = .trusted ↔
      ∃ known ∈ knownHosts, matchesHostAndPort known hostname port = true ∧
        knownFingerprint opensshFingerprint known =
          some (normalizeFingerprint live.fingerprint) := by
  unfold classifyHostKey
  dsimp only
  cases hfind : (hostKeyCandidates opensshFingerprint knownHosts hostname port).find?
      fun candidate => candidate.2 = normalizeFingerprint live.fingerprint with
  | some candidate =>
      have hsame : candidate.2 = normalizeFingerprint live.fingerprint := by
        simpa using List.find?_some hfind
      obtain ⟨hmem, hmatches, hfingerprint⟩ :=
        mem_hostKeyCandidates.mp (List.mem_of_find?_eq_some hfind)
      exact iff_of_true rfl ⟨candidate.1, hmem, hmatches, hsame ▸ hfingerprint⟩
  | none =>
      have hnone := List.find?_eq_none.mp hfind
      constructor
      · intro htrusted
        exfalso
        dsimp only at htrusted
        split_ifs at htrusted
        split at htrusted
        · cases htrusted
        · cases htrusted
      · rintro ⟨known, hmem, hmatches, hfingerprint⟩
        have hcandidate := mem_hostKeyCandidates.mpr ⟨hmem, hmatches, hfingerprint⟩
        exact absurd (decide_eq_true rfl) (hnone _ hcandidate)

end Fingerprints

end Netcatty.Ssh
