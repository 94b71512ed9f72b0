import Netcatty.Vault.Model

/-! # Hosts, keys, identities and proxies

The entities of the vault graph, each with its `validate`, the order its catalog is kept in
(`stableCmp`) and the equality that an import goes by (`businessFieldsEqual`). -/

namespace Netcatty.Vault

open Serial (isControl)

abbrev SavedHostId := Text
abbrev SavedSshKeyReferenceId := Text
abbrev SavedIdentityReferenceId := Text
abbrev SavedPasswordIdentityId := Text
abbrev SavedProxyProfileId := Text

/-! ### Tokens -/

/-- A kind of SSH key; compared without regard to ASCII case. -/
structure SavedSshKeyCategory where
  value : Text
  deriving DecidableEq

def SavedSshKeyCategory.key : SavedSshKeyCategory := ⟨"key".toList⟩
def SavedSshKeyCategory.certificate : SavedSshKeyCategory := ⟨"certificate".toList⟩
def SavedSshKeyCategory.identity : SavedSshKeyCategory := ⟨"identity".toList⟩

def SavedSshKeyCategory.isCertificate (category : SavedSshKeyCategory) : Bool :=
  eqIgnoreAsciiCase category.value "certificate".toList

def SavedSshKeyCategory.isPrivateKeyMaterial (category : SavedSshKeyCategory) : Bool :=
  eqIgnoreAsciiCase category.value "key".toList ||
    eqIgnoreAsciiCase category.value "identity".toList

def SavedSshKeyCategory.canonicalManaged (category : SavedSshKeyCategory) :
    Option SavedSshKeyCategory :=
  if eqIgnoreAsciiCase category.value "key".toList then some .key
  else if eqIgnoreAsciiCase category.value "identity".toList then some .identity
  else if eqIgnoreAsciiCase category.value "certificate".toList then some .certificate
  else none

structure SavedSshKeySource where
  value : Text
  deriving DecidableEq

def SavedSshKeySource.reference : SavedSshKeySource := ⟨"reference".toList⟩
def SavedSshKeySource.generated : SavedSshKeySource := ⟨"generated".toList⟩
def SavedSshKeySource.imported : SavedSshKeySource := ⟨"imported".toList⟩

def SavedSshKeySource.isReference (source : SavedSshKeySource) : Bool :=
  eqIgnoreAsciiCase source.value "reference".toList

def SavedSshKeySource.canonicalManaged (source : SavedSshKeySource) : Option SavedSshKeySource :=
  if eqIgnoreAsciiCase source.value "generated".toList then some .generated
  else if eqIgnoreAsciiCase source.value "imported".toList then some .imported
  else none

def SavedSshKeySource.isManaged (source : SavedSshKeySource) : Bool :=
  eqIgnoreAsciiCase source.value "generated".toList ||
    eqIgnoreAsciiCase source.value "imported".toList

structure SavedIdentityAuthMethod where
  value : Text
  deriving DecidableEq

def SavedIdentityAuthMethod.key : SavedIdentityAuthMethod := ⟨"key".toList⟩
def SavedIdentityAuthMethod.certificate : SavedIdentityAuthMethod := ⟨"certificate".toList⟩

def SavedIdentityAuthMethod.isKey (method : SavedIdentityAuthMethod) : Bool :=
  eqIgnoreAsciiCase method.value "key".toList

def SavedIdentityAuthMethod.isCertificate (method : SavedIdentityAuthMethod) : Bool :=
  eqIgnoreAsciiCase method.value "certificate".toList

structure SavedHostProtocol where
  value : Text
  deriving DecidableEq

def SavedHostProtocol.ssh : SavedHostProtocol := ⟨"ssh".toList⟩

def SavedHostProtocol.isSsh (protocol : SavedHostProtocol) : Bool :=
  eqIgnoreAsciiCase protocol.value "ssh".toList

def SavedHostProtocol.isTelnet (protocol : SavedHostProtocol) : Bool :=
  eqIgnoreAsciiCase protocol.value "telnet".toList

def SavedHostProtocol.isSerial (protocol : SavedHostProtocol) : Bool :=
  eqIgnoreAsciiCase protocol.value "serial".toList

structure SavedHostAuthMethod where
  value : Text
  deriving DecidableEq

def SavedHostAuthMethod.password : SavedHostAuthMethod := ⟨"password".toList⟩

def SavedHostAuthMethod.isPassword (method : SavedHostAuthMethod) : Bool :=
  eqIgnoreAsciiCase method.value "password".toList

def SavedHostAuthMethod.isKey (method : SavedHostAuthMethod) : Bool :=
  eqIgnoreAsciiCase method.value "key".toList

def SavedHostAuthMethod.isCertificate (method : SavedHostAuthMethod) : Bool :=
  eqIgnoreAsciiCase method.value "certificate".toList

/-! ### Proxies -/

inductive SavedProxyConfig
  | http (host : Text) (port : ℕ) (identityId : Option SavedPasswordIdentityId) (username : Text)
      (hasSavedCredential : Bool) (compatibilityFields : Fields)
  | socks5 (host : Text) (port : ℕ) (identityId : Option SavedPasswordIdentityId) (username : Text)
      (hasSavedCredential : Bool) (compatibilityFields : Fields)
  | command (command : Text) (compatibilityFields : Fields)
  deriving DecidableEq

def SavedProxyConfig.identityId : SavedProxyConfig → Option SavedPasswordIdentityId
  | .http _ _ identityId _ _ _ | .socks5 _ _ identityId _ _ _ => identityId
  | .command .. => none

def SavedProxyConfig.validateNetwork (host : Text) (port : ℕ)
    (identityId : Option SavedPasswordIdentityId) (username : Text) (hasSavedCredential : Bool)
    (compatibilityFields : Fields) : Except ValidationError Unit := do
  validateCanonical "host" host (normalizeProxyHostname host)
  if port = 0 then .error .invalidPort
  match identityId with
  | some id =>
    validateOpaqueId "saved password identity ID" id
    if !username.isEmpty || hasSavedCredential then .error (.nonCanonicalField "proxyConfig")
  | none => validateCanonical "username" username (normalizeProxyUsername username)
  validateCompatibilityFieldsWith isReservedProxyConfigField compatibilityFields

def SavedProxyConfig.validate : SavedProxyConfig → Except ValidationError Unit
  | .http host port identityId username hasSavedCredential compatibilityFields
  | .socks5 host port identityId username hasSavedCredential compatibilityFields =>
    validateNetwork host port identityId username hasSavedCredential compatibilityFields
  | .command line compatibilityFields => do
    validateCanonical "command" line (normalizeProxyCommand line)
    validateCompatibilityFieldsWith isReservedProxyConfigField compatibilityFields

structure SavedProxyProfile where
  recordVersion : ℕ
  id : SavedProxyProfileId
  revision : ℕ
  label : Text
  config : SavedProxyConfig
  createdAt : ℕ
  updatedAt : ℕ
  compatibilityFields : Fields
  deriving DecidableEq

def SavedProxyProfile.validate (profile : SavedProxyProfile) : Except ValidationError Unit := do
  validateOpaqueId "saved proxy profile ID" profile.id
  if profile.recordVersion ≠ Vault.recordVersion then .error (.nonCanonicalField "recordVersion")
  if profile.revision = 0 then .error .invalidRevision
  validateCanonical "label" profile.label (normalizeLabel profile.label)
  profile.config.validate
  if profile.updatedAt < profile.createdAt then .error .invalidTimestamps
  validateCompatibilityFieldsWith isReservedProxyProfileField profile.compatibilityFields

def SavedProxyProfile.businessFieldsEqual (left right : SavedProxyProfile) : Bool :=
  left.id = right.id && left.label = right.label && left.config = right.config &&
    left.compatibilityFields = right.compatibilityFields

/-! ### Code outside the vault -/

/-- The fields of a serial configuration that the host check reads. -/
structure SavedSerialConfig where
  path : Text
  baudRate : ℕ
  hasBackspaceBehavior : Bool

/-- Unicode lower-casing, and the derived JSON decoders of the two records nested in a host. -/
structure Externals where
  toLowercase : Text → Text
  serialConfigFromValue : Value → Option SavedSerialConfig
  proxyConfigFromValue : Value → Option SavedProxyConfig

/-- Text in ASCII, and no host with a nested record. -/
def asciiExternals : Externals := ⟨List.map Char.toLower, fun _ => none, fun _ => none⟩

/-! ### Hosts -/

structure SavedHost where
  recordVersion : ℕ
  id : SavedHostId
  revision : ℕ
  label : Text
  hostname : Text
  port : ℕ
  username : Text
  protocol : SavedHostProtocol
  authMethod : SavedHostAuthMethod
  authPolicyVersion : ℕ
  createdAt : ℕ
  updatedAt : ℕ
  compatibilityFields : Fields
  deriving DecidableEq

def normalizeHostEndpoint (protocol : SavedHostProtocol) (value : Text) :
    Except ValidationError Text :=
  if protocol.isSerial then
    match normalizeSerialPath value with
    | .ok value => .ok value
    | .error error => .error (.invalidSerialConfig error)
  else normalizeHostname value

def normalizeHostPort (protocol : SavedHostProtocol) (value : ℕ) : Except ValidationError ℕ :=
  if value = 0 ∨ (protocol.isSsh || protocol.isTelnet) ∧ 65535 < value then .error .invalidPort
  else .ok value

section Externals

variable (E : Externals)

def parseSerialConfig : Option Value → Except ValidationError (Option SavedSerialConfig)
  | none | some .null => .ok none
  | some value =>
    match E.serialConfigFromValue value with
    | some config => .ok (some config)
    | none => .error (.invalidSerialConfig .malformedConfig)

def parseSerialBackspaceBehavior : Option Value → Except ValidationError Unit
  | none | some .null => .ok ()
  | some (.string value) =>
    if value = "default".toList ∨ value = "ctrl-h".toList then .ok ()
    else .error (.invalidSerialConfig .invalidBackspaceBehavior)
  | some _ => .error (.invalidSerialConfig .invalidBackspaceBehavior)

def parseProxyConfig : Option Value → Except ValidationError (Option SavedProxyConfig)
  | none | some .null => .ok none
  | some value =>
    match E.proxyConfigFromValue value with
    | some config => .ok (some config)
    | none => .error .invalidProxyConfig

def parseProxyProfileId : Option Value → Except ValidationError (Option SavedProxyProfileId)
  | none | some .null => .ok none
  | some (.string value) =>
    if value.isEmpty then .ok none
    else do
      validateOpaqueId "saved proxy profile ID" value
      return some value
  | some _ => .error (.invalidOpaqueId "saved proxy profile ID")

/-- The inline proxy of a host; a Telnet or serial host has none. -/
def SavedHost.proxyConfig (host : SavedHost) : Except ValidationError (Option SavedProxyConfig) :=
  if host.protocol.isTelnet || host.protocol.isSerial then .ok none
  else parseProxyConfig E (host.compatibilityFields.get? "proxyConfig")

def SavedHost.proxyProfileId (host : SavedHost) :
    Except ValidationError (Option SavedProxyProfileId) :=
  if host.protocol.isTelnet || host.protocol.isSerial then .ok none
  else parseProxyProfileId (host.compatibilityFields.get? "proxyProfileId")

def SavedHost.serialConfig (host : SavedHost) : Except ValidationError (Option SavedSerialConfig) :=
  if host.protocol.isSerial then
    parseSerialConfig E (host.compatibilityFields.get? "serialConfig")
  else .ok none

def SavedHost.validate (host : SavedHost) : Except ValidationError Unit := do
  validateId host.id
  if host.revision = 0 then .error .invalidRevision
  validateCanonical "label" host.label (normalizeLabel host.label)
  validateCanonical "hostname" host.hostname (normalizeHostEndpoint host.protocol host.hostname)
  validateCanonical "username" host.username (normalizeUsername host.username)
  let _ ← normalizeHostPort host.protocol host.port
  validateToken "protocol" host.protocol.value
  validateToken "authMethod" host.authMethod.value
  if host.updatedAt < host.createdAt then .error .invalidTimestamps
  validateCompatibilityFields host.compatibilityFields
  if host.protocol.isSerial then
    let config ← host.serialConfig E
    if config.any fun config => config.path ≠ host.hostname || config.baudRate ≠ host.port then
      .error (.invalidSerialConfig .endpointMismatch)
    if config.all fun config => !config.hasBackspaceBehavior then
      parseSerialBackspaceBehavior (host.compatibilityFields.get? "backspaceBehavior")

def SavedHost.stableCmp : SavedHost → SavedHost → Ordering :=
  compareLex (compareOn fun host => E.toLowercase host.label) <|
  compareLex (compareOn (·.label)) <|
  compareLex (compareOn fun host => E.toLowercase host.hostname) <|
  compareLex (compareOn (·.port)) <|
  compareLex (compareOn fun host => E.toLowercase host.username) (compareOn (·.id))

/-- Catalogs other than the hosts are kept by label, then id. -/
def labelCmp {α : Type} (label id : α → Text) : α → α → Ordering :=
  compareLex (compareOn fun a => E.toLowercase (label a)) <|
  compareLex (compareOn label) (compareOn id)

instance {α : Type} (label id : α → Text) : Std.TransCmp (labelCmp E label id) := by
  unfold labelCmp
  infer_instance

instance : Std.TransCmp (SavedHost.stableCmp E) := by
  unfold SavedHost.stableCmp
  infer_instance

def SavedProxyProfile.stableCmp : SavedProxyProfile → SavedProxyProfile → Ordering :=
  labelCmp E (·.label) (·.id)

instance : Std.TransCmp (SavedProxyProfile.stableCmp E) :=
  inferInstanceAs (Std.TransCmp (labelCmp E _ _))

end Externals

def SavedHost.businessFieldsEqual (left right : SavedHost) : Bool :=
  left.id = right.id && left.label = right.label && left.hostname = right.hostname &&
    left.port = right.port && left.username = right.username && left.protocol = right.protocol &&
    left.authMethod = right.authMethod && left.authPolicyVersion = right.authPolicyVersion &&
    left.compatibilityFields = right.compatibilityFields

/-! ### SSH keys -/

structure SavedSshKeyReference where
  id : SavedSshKeyReferenceId
  label : Text
  filePath : Text
  category : SavedSshKeyCategory
  source : SavedSshKeySource
  createdAt : ℕ
  updatedAt : ℕ
  compatibilityFields : Fields
  deriving DecidableEq

def SavedSshKeyReference.validate (reference : SavedSshKeyReference) :
    Except ValidationError Unit := do
  validateOpaqueId "saved SSH key reference ID" reference.id
  validateCanonical "label" reference.label (normalizeLabel reference.label)
  validateCanonical "filePath" reference.filePath (normalizeFilePath reference.filePath)
  validateToken "category" reference.category.value
  validateToken "source" reference.source.value
  if !reference.source.isReference then .error .unsupportedReferenceSource
  if reference.updatedAt < reference.createdAt then .error .invalidTimestamps
  validateCompatibilityFieldsWith isReservedKeyReferenceField reference.compatibilityFields

def SavedSshKeyReference.stableCmp (E : Externals) :
    SavedSshKeyReference → SavedSshKeyReference → Ordering := labelCmp E (·.label) (·.id)

instance (E : Externals) : Std.TransCmp (SavedSshKeyReference.stableCmp E) :=
  inferInstanceAs (Std.TransCmp (labelCmp E _ _))

def SavedSshKeyReference.businessFieldsEqual (left right : SavedSshKeyReference) : Bool :=
  left.id = right.id && left.label = right.label && left.filePath = right.filePath &&
    left.category = right.category && left.source = right.source &&
    left.compatibilityFields = right.compatibilityFields

structure SavedSshKeyCustodyReference where
  backendLocator : Text
  custodyRevision : ℕ
  deriving DecidableEq

def SavedSshKeyCustodyReference.validate (custody : SavedSshKeyCustodyReference) :
    Except ValidationError Unit := do
  validateSecretObjectLocator custody.backendLocator
  if custody.custodyRevision = 0 then .error .invalidCustodyRevision

structure SavedManagedSshKey where
  id : SavedSshKeyReferenceId
  label : Text
  category : SavedSshKeyCategory
  source : SavedSshKeySource
  hasSavedPassphrase : Bool
  createdAt : ℕ
  updatedAt : ℕ
  custody : SavedSshKeyCustodyReference
  compatibilityFields : Fields
  deriving DecidableEq

def SavedManagedSshKey.validate (key : SavedManagedSshKey) : Except ValidationError Unit := do
  validateOpaqueId "saved managed SSH key ID" key.id
  validateCanonical "label" key.label (normalizeLabel key.label)
  validateToken "category" key.category.value
  if key.category.canonicalManaged ≠ some key.category then .error (.nonCanonicalField "category")
  validateToken "source" key.source.value
  if !key.source.isManaged ∨ key.source.canonicalManaged ≠ some key.source then
    .error .unsupportedManagedKeySource
  if key.updatedAt < key.createdAt then .error .invalidTimestamps
  key.custody.validate
  validateCompatibilityFieldsWith isReservedManagedKeyField key.compatibilityFields

def SavedManagedSshKey.stableCmp (E : Externals) :
    SavedManagedSshKey → SavedManagedSshKey → Ordering := labelCmp E (·.label) (·.id)

instance (E : Externals) : Std.TransCmp (SavedManagedSshKey.stableCmp E) :=
  inferInstanceAs (Std.TransCmp (labelCmp E _ _))

def SavedManagedSshKey.businessFieldsEqual (left right : SavedManagedSshKey) : Bool :=
  left.id = right.id && left.label = right.label && left.category = right.category &&
    left.source = right.source && left.hasSavedPassphrase = right.hasSavedPassphrase &&
    left.custody = right.custody && left.compatibilityFields = right.compatibilityFields

/-! ### Identities -/

structure SavedIdentityReference where
  id : SavedIdentityReferenceId
  label : Text
  username : Text
  authMethod : SavedIdentityAuthMethod
  keyId : SavedSshKeyReferenceId
  createdAt : ℕ
  updatedAt : ℕ
  compatibilityFields : Fields
  deriving DecidableEq

def SavedIdentityReference.validate (reference : SavedIdentityReference) :
    Except ValidationError Unit := do
  validateOpaqueId "saved identity reference ID" reference.id
  validateOpaqueId "saved SSH key reference ID" reference.keyId
  validateCanonical "label" reference.label (normalizeLabel reference.label)
  validateCanonical "username" reference.username (normalizeUsername reference.username)
  validateToken "authMethod" reference.authMethod.value
  if !reference.authMethod.isKey && !reference.authMethod.isCertificate then
    .error .unsupportedReferenceAuthMethod
  if reference.updatedAt < reference.createdAt then .error .invalidTimestamps
  validateCompatibilityFieldsWith isReservedIdentityReferenceField reference.compatibilityFields

def SavedIdentityReference.stableCmp (E : Externals) :
    SavedIdentityReference → SavedIdentityReference → Ordering := labelCmp E (·.label) (·.id)

instance (E : Externals) : Std.TransCmp (SavedIdentityReference.stableCmp E) :=
  inferInstanceAs (Std.TransCmp (labelCmp E _ _))

def SavedIdentityReference.businessFieldsEqual (left right : SavedIdentityReference) : Bool :=
  left.id = right.id && left.label = right.label && left.username = right.username &&
    left.authMethod = right.authMethod && left.keyId = right.keyId &&
    left.compatibilityFields = right.compatibilityFields

structure SavedPasswordIdentity where
  recordVersion : ℕ
  id : SavedPasswordIdentityId
  revision : ℕ
  label : Text
  username : Text
  hasSavedCredential : Bool
  createdAt : ℕ
  updatedAt : ℕ
  compatibilityFields : Fields
  deriving DecidableEq

def SavedPasswordIdentity.validate (identity : SavedPasswordIdentity) :
    Except ValidationError Unit := do
  validateOpaqueId "saved password identity ID" identity.id
  if identity.recordVersion ≠ Vault.recordVersion then .error (.nonCanonicalField "recordVersion")
  if identity.revision = 0 then .error .invalidRevision
  validateCanonical "label" identity.label (normalizeLabel identity.label)
  validateCanonical "username" identity.username (normalizeUsername identity.username)
  if identity.updatedAt < identity.createdAt then .error .invalidTimestamps
  validateCompatibilityFieldsWith isReservedPasswordIdentityField identity.compatibilityFields

def SavedPasswordIdentity.stableCmp (E : Externals) :
    SavedPasswordIdentity → SavedPasswordIdentity → Ordering := labelCmp E (·.label) (·.id)

instance (E : Externals) : Std.TransCmp (SavedPasswordIdentity.stableCmp E) :=
  inferInstanceAs (Std.TransCmp (labelCmp E _ _))

def SavedPasswordIdentity.businessFieldsEqual (left right : SavedPasswordIdentity) : Bool :=
  left.id = right.id && left.label = right.label && left.username = right.username &&
    left.hasSavedCredential = right.hasSavedCredential &&
    left.compatibilityFields = right.compatibilityFields

end Netcatty.Vault
