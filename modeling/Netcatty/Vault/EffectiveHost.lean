import Mathlib.Data.Char
import Mathlib.Data.List.Lex
import Mathlib.Data.List.Sort
import Netcatty.Vault.GroupDefaults

/-! # Effective hosts

A connection is made to a saved host with the defaults of its group applied to a copy
(`projectSavedHostConnection`).  A field that the host has keeps its value; a missing field, or a
null one, takes the default.  The projection also names the owner of each credential, the host or a
group record, since passwords are kept under the id of their owner.

The derived JSON encoder of an inline proxy is `ProjectionExternals.proxyConfigToValue`. -/

namespace Netcatty.Vault.GroupConfig

/-! ### Fields -/

namespace Fields

/-- `BTreeMap::remove`. -/
def remove (fields : Fields) (key : String) : Fields := fields.filter (·.1 ≠ key.toList)

/-- `BTreeMap::insert`. -/
def insert (fields : Fields) (key : String) (value : Value) : Fields :=
  (remove fields key).orderedInsert (fun a b => a.1 ≤ b.1) (key.toList, value)

end Fields

def fieldInherits (value : Option Value) (emptyIsExplicit : Bool) : Bool :=
  match value with
  | none | some .null => true
  | some (.string value) => value.isEmpty && !emptyIsExplicit
  | some _ => false

def booleanField (fields : Fields) (key : String) : Bool :=
  match fields.get? key with
  | some (.bool value) => value
  | _ => false

def hasNonEmptyLength : Value → Bool
  | .array values => !values.isEmpty
  | .string value => !value.isEmpty
  | _ => false

def jsTruthy : Value → Bool
  | .null => false
  | .bool value => value
  | .integer value => value ≠ 0
  | .float value => value ≠ 0
  | .string value => !value.isEmpty
  | .array _ | .object _ => true

/-- A default that is set, as JSON. -/
def mapOverride {α β : Type} (f : α → β) : SavedGroupOverride α → SavedGroupOverride β
  | .inherit => .inherit
  | .clear => .clear
  | .set value => .set (f value)

def applyOverride (fields : Fields) (key : String) (value : SavedGroupOverride Value)
    (emptyIsExplicit : Bool) : Fields :=
  if !fieldInherits (fields.get? key) emptyIsExplicit then fields
  else
    match value with
    | .inherit => fields
    | .clear => Fields.remove fields key
    | .set value => Fields.insert fields key value

/-! ### Defaults as JSON -/

def port (value : ℕ) : Value := .integer value

def texts (values : List Text) : Value := .array (values.map .string)

def SavedGroupDeviceType.toValue : SavedGroupDeviceType → Value
  | .general => .string "general".toList
  | .network => .string "network".toList

def SavedGroupStartupCommandRunMode.toValue : SavedGroupStartupCommandRunMode → Value
  | .lineDelay => .string "lineDelay".toList
  | .paste => .string "paste".toList

def SavedGroupBackspaceBehavior.toValue : SavedGroupBackspaceBehavior → Value
  | .ctrlH => .string "ctrl-h".toList

def algorithmsToValue (algorithms : SavedGroupAlgorithmOverrides) : Value :=
  .object [
    ("cipher".toList, algorithms.cipher.elim .null texts),
    ("compress".toList, algorithms.compress.elim .null texts),
    ("hmac".toList, algorithms.hmac.elim .null texts),
    ("kex".toList, algorithms.kex.elim .null texts),
    ("serverHostKey".toList, algorithms.serverHostKey.elim .null texts)]

def SavedGroupEnvironmentVariable.toValue (entry : SavedGroupEnvironmentVariable) : Value :=
  .object [("name".toList, .string entry.name), ("value".toList, .string entry.value)]

/-- The defaults that belong to no credential or proxy, each with its key. -/
def nonCredentialDefaults (defaults : SavedGroupDefaults) (includeHostChain : Bool) :
    List (String × SavedGroupOverride Value) :=
  [("deviceType", mapOverride SavedGroupDeviceType.toValue defaults.deviceType),
    ("agentForwarding", mapOverride .bool defaults.agentForwarding)] ++
  (if includeHostChain then [("hostChain", mapOverride texts defaults.hostChain)] else []) ++
  [("startupCommand", mapOverride .string defaults.startupCommand),
    ("startupCommandRunMode",
      mapOverride SavedGroupStartupCommandRunMode.toValue defaults.startupCommandRunMode),
    ("loginScriptId", mapOverride .string defaults.loginScriptId),
    ("legacyAlgorithms", mapOverride .bool defaults.legacyAlgorithms),
    ("skipEcdsaHostKey", mapOverride .bool defaults.skipEcdsaHostKey),
    ("algorithms", mapOverride algorithmsToValue defaults.algorithms),
    ("environmentVariables", mapOverride
      (fun values => .array (values.map SavedGroupEnvironmentVariable.toValue))
      defaults.environmentVariables),
    ("charset", mapOverride .string defaults.charset),
    ("moshEnabled", mapOverride .bool defaults.moshEnabled),
    ("moshServerPath", mapOverride .string defaults.moshServerPath),
    ("etEnabled", mapOverride .bool defaults.etEnabled),
    ("etPort", mapOverride port defaults.etPort),
    ("telnetEnabled", mapOverride .bool defaults.telnetEnabled),
    ("telnetPort", mapOverride port defaults.telnetPort),
    ("theme", mapOverride .string defaults.theme),
    ("themeOverride", mapOverride .bool defaults.themeOverride),
    ("fontFamily", mapOverride .string defaults.fontFamily),
    ("fontFamilyOverride", mapOverride .bool defaults.fontFamilyOverride),
    ("fontSize", mapOverride .float defaults.fontSize),
    ("fontSizeOverride", mapOverride .bool defaults.fontSizeOverride),
    ("fontWeight", mapOverride .float defaults.fontWeight),
    ("fontWeightOverride", mapOverride .bool defaults.fontWeightOverride),
    ("backspaceBehavior",
      mapOverride SavedGroupBackspaceBehavior.toValue defaults.backspaceBehavior)]

def applyOverrides (fields : Fields) (overrides : List (String × SavedGroupOverride Value)) :
    Fields :=
  overrides.foldl (fun fields override => applyOverride fields override.1 override.2 false) fields

def applyNonCredentialDefaults (defaults : SavedGroupDefaults) (fields : Fields)
    (includeHostChain : Bool) : Fields :=
  applyOverrides fields (nonCredentialDefaults defaults includeHostChain)

/-! ### Credentials -/

inductive SavedHostConnectionCredentialOwner
  | host (id : SavedHostId)
  | group (id : Text)
  deriving DecidableEq

inductive SavedHostConnectionProjectionError
  | invalidHostMetadata
  | invalidProjectedMetadata
  | missingCredentialProvenance
  deriving DecidableEq

structure ProjectionExternals extends Externals where
  proxyConfigToValue : SavedProxyConfig → Value

/-- `identityId` of either kind of reference. -/
def identityValue : SavedGroupIdentityReference → Value
  | .key id | .password id => .string id

/-- Whether the host says how it authenticates, and so keeps the identity of a group away. -/
def hostHasManualSshCredentials (host : SavedHost) (fields : Fields) : Bool :=
  let hostUsername := Serial.trim host.username
  !(fields.get? "identityId").any jsTruthy &&
    (!hostUsername.isEmpty && hostUsername ≠ "root".toList || host.authPolicyVersion = 1 ||
      booleanField fields "hasSavedCredential" ||
      fields.get? "savePassword" = some (.bool false) ||
      (fields.get? "identityFileId").any jsTruthy ||
      (fields.get? "identityFilePaths").any hasNonEmptyLength)

def skipGroupSshBundle (host : SavedHost) (defaults : SavedGroupDefaults) (fields : Fields) :
    Bool :=
  (fields.get? "identityId").any jsTruthy ||
    isSet defaults.identityId &&
      (fields.get? "identityId" = some (.string []) || hostHasManualSshCredentials host fields)

def hostBlocksGroupPassword (fields : Fields) : Bool :=
  booleanField fields "hasSavedCredential" || fields.get? "savePassword" = some (.bool false)

/-- What the defaults change of a host: its fields and its username. -/
structure SshProjection where
  fields : Fields
  effectiveUsername : Text
  credentialOwner : Option SavedHostConnectionCredentialOwner

def applySshDefaults (host : SavedHost) (resolved : ResolvedSavedGroupDefaults)
    (fields : Fields) (effectiveUsername : Text)
    (credentialOwner : Option SavedHostConnectionCredentialOwner) :
    Except SavedHostConnectionProjectionError SshProjection := do
  let defaults := resolved.defaults
  if skipGroupSshBundle host defaults fields then
    return ⟨fields, effectiveUsername, credentialOwner⟩
  let effectiveUsername :=
    if effectiveUsername.isEmpty then
      match defaults.username with
      | .set username => username
      | _ => effectiveUsername
    else effectiveUsername
  let (fields, credentialOwner) ←
    if !hostBlocksGroupPassword fields && !isSet defaults.identityId then
      match defaults.password with
      | .inherit | .clear => .ok (fields, credentialOwner)
      | .storedHint =>
        match resolved.sshCredentialOwner with
        | none => .error .missingCredentialProvenance
        | some owner =>
          .ok (Fields.insert fields "hasSavedCredential" (.bool true), some (.group owner))
    else .ok (fields, credentialOwner)
  let fields := applyOverride fields "savePassword" (mapOverride .bool defaults.savePassword) false
  let fields :=
    applyOverride fields "identityId" (mapOverride identityValue defaults.identityId) true
  let fields :=
    applyOverride fields "identityFileId" (mapOverride .string defaults.identityFileId) false
  let fields :=
    applyOverride fields "identityFilePaths" (mapOverride texts defaults.identityFilePaths) false
  return ⟨fields, effectiveUsername, credentialOwner⟩

/-- Whether the host has Telnet credentials of its own. -/
def hostTelnetManual (host : SavedHost) (fields : Fields) : Bool :=
  let hostUsername := Serial.trim host.username
  let primaryTelnetManual := host.protocol.isTelnet &&
    (!hostUsername.isEmpty && hostUsername ≠ "root".toList ||
      booleanField fields "hasSavedCredential" ||
      fields.get? "savePassword" = some (.bool false))
  !(fields.get? "telnetIdentityId").any jsTruthy &&
    ((fields.get? "telnetUsername").isSome || (fields.get? "telnetPassword").isSome ||
      primaryTelnetManual)

def applyTelnetDefaults (host : SavedHost) (resolved : ResolvedSavedGroupDefaults)
    (fields : Fields) (credentialOwner : Option SavedHostConnectionCredentialOwner) :
    Except SavedHostConnectionProjectionError
      (Fields × Option SavedHostConnectionCredentialOwner) := do
  let defaults := resolved.defaults
  let manual := hostTelnetManual host fields
  let fields :=
    if manual then fields
    else applyOverride fields "telnetIdentityId" (mapOverride .string defaults.telnetIdentityId)
      true
  let fields :=
    applyOverride fields "telnetUsername" (mapOverride .string defaults.telnetUsername) true
  if credentialOwner.isNone && !manual && !isSet defaults.telnetIdentityId &&
      defaults.telnetPassword = .storedHint then
    match resolved.telnetCredentialOwner with
    | none => .error .missingCredentialProvenance
    | some owner => return (fields, some (.group owner))
  else return (fields, credentialOwner)

section Projection

variable (E : ProjectionExternals)

def applyProxyDefaults (resolved : ResolvedSavedGroupDefaults) (fields : Fields)
    (credentialOwner : Option SavedHostConnectionCredentialOwner) :
    Except SavedHostConnectionProjectionError
      (Fields × Option SavedHostConnectionCredentialOwner) :=
  match resolved.defaults.proxy with
  | .inherit => .ok (fields, credentialOwner)
  | .clear => .ok (fields, none)
  | .profile profileId =>
    if (fields.get? "proxyConfig").isNone &&
        fieldInherits (fields.get? "proxyProfileId") false then
      .ok (Fields.insert (Fields.remove fields "proxyConfig") "proxyProfileId" (.string profileId),
        none)
    else .ok (fields, credentialOwner)
  | .inline config =>
    if (fields.get? "proxyProfileId").isNone &&
        fieldInherits (fields.get? "proxyConfig") false then
      let fields := Fields.insert (Fields.remove fields "proxyProfileId") "proxyConfig"
        (E.proxyConfigToValue config)
      if inlineProxyHasSavedManualCredential config then
        match resolved.inlineProxyCredentialOwner with
        | none => .error .missingCredentialProvenance
        | some owner => .ok (fields, some (.group owner))
      else .ok (fields, none)
    else .ok (fields, credentialOwner)

def maxHostChainItems : ℕ := 128

/-- The derived decoder of a host chain. -/
def hostChainFromValues (values : List Value) : Option (List SavedHostId) := do
  let ids ← values.mapM fun value =>
    match value with
    | .string id => if isOpaqueId id then some id else none
    | _ => none
  if ids.length ≤ maxHostChainItems then some ids else none

def parseEffectiveHostChain (value : Option Value) :
    Except SavedHostConnectionProjectionError (List SavedHostId) :=
  let chain : Option (List SavedHostId) :=
    match value with
    | none | some .null => some []
    | some (.object [(key, .array values)]) =>
      if key = "hostIds".toList then hostChainFromValues values else none
    | some (.array values) => hostChainFromValues values
    | some _ => none
  match chain with
  | some ids => .ok ids
  | none => .error .invalidHostMetadata

structure SavedHostConnectionProjection where
  effectiveHost : SavedHost
  resolvedGroupDefaults : SavedGroupDefaults
  hostChainIds : List SavedHostId
  sshCredentialOwner : Option SavedHostConnectionCredentialOwner
  telnetCredentialOwner : Option SavedHostConnectionCredentialOwner
  inlineProxyCredentialOwner : Option SavedHostConnectionCredentialOwner
  deriving DecidableEq

/-- The defaults of the group that a host is in. -/
def resolveHostGroup (host : SavedHost) (groupConfigs : List SavedGroupConfig) :
    Except SavedHostConnectionProjectionError ResolvedSavedGroupDefaults :=
  match parseGroupPath (host.compatibilityFields.get? "group") with
  | .error _ => .error .invalidHostMetadata
  | .ok none => .ok .empty
  | .ok (some path) => .ok (resolveGroupDefaultsWithProvenance path groupConfigs)

/-- `map_err` of a validation error. -/
def orElse {α : Type} (error : SavedHostConnectionProjectionError)
    (result : Except ValidationError α) : Except SavedHostConnectionProjectionError α :=
  match result with
  | .ok a => .ok a
  | .error _ => .error error

def withProjectedCompatibilityFields (host : SavedHost) (fields : Fields) :
    Except ValidationError SavedHost := do
  validateCompatibilityFields fields
  let projected := { host with compatibilityFields := fields }
  projected.validate E.toExternals
  return projected

def projectSavedHostConnection (host : SavedHost) (groupConfigs : List SavedGroupConfig) :
    Except SavedHostConnectionProjectionError SavedHostConnectionProjection := do
  let isPrimaryTelnet := host.protocol.isTelnet
  let isPrimarySerial := host.protocol.isSerial
  let hasInactiveSshRelationships := isPrimaryTelnet || isPrimarySerial
  let resolved ← resolveHostGroup host groupConfigs
  let parsedHostInlineProxy ← orElse .invalidHostMetadata (host.proxyConfig E.toExternals)
  let _ ← orElse .invalidHostMetadata host.proxyProfileId
  let fields := host.compatibilityFields
  let hostHasSavedSshCredential := booleanField fields "hasSavedCredential"
  let sshCredentialOwner : Option SavedHostConnectionCredentialOwner :=
    if !hasInactiveSshRelationships && hostHasSavedSshCredential then some (.host host.id) else none
  let telnetCredentialOwner : Option SavedHostConnectionCredentialOwner :=
    if isPrimaryTelnet && hostHasSavedSshCredential then some (.host host.id) else none
  let inlineProxyCredentialOwner : Option SavedHostConnectionCredentialOwner :=
    if !hasInactiveSshRelationships &&
        parsedHostInlineProxy.any inlineProxyHasSavedManualCredential then
      some (.host host.id)
    else none
  let ssh ←
    if hasInactiveSshRelationships then .ok ⟨fields, host.username, sshCredentialOwner⟩
    else applySshDefaults host resolved fields host.username sshCredentialOwner
  let (fields, telnetCredentialOwner) ←
    if isPrimarySerial then .ok (ssh.fields, telnetCredentialOwner)
    else applyTelnetDefaults host resolved ssh.fields telnetCredentialOwner
  let (fields, inlineProxyCredentialOwner) ←
    if hasInactiveSshRelationships then .ok (fields, inlineProxyCredentialOwner)
    else applyProxyDefaults E resolved fields inlineProxyCredentialOwner
  let fields := applyNonCredentialDefaults resolved.defaults fields !hasInactiveSshRelationships
  let effectiveHost ←
    orElse .invalidProjectedMetadata (withProjectedCompatibilityFields E host fields)
  let effectiveHost := { effectiveHost with username := ssh.effectiveUsername }
  orElse .invalidProjectedMetadata (effectiveHost.validate E.toExternals)
  let hostChainIds ←
    if hasInactiveSshRelationships then .ok []
    else parseEffectiveHostChain (effectiveHost.compatibilityFields.get? "hostChain")
  return {
    effectiveHost
    resolvedGroupDefaults := resolved.defaults
    hostChainIds
    sshCredentialOwner := ssh.credentialOwner
    telnetCredentialOwner
    inlineProxyCredentialOwner }

end Projection

end Netcatty.Vault.GroupConfig
