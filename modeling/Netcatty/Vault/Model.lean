import Mathlib.Algebra.Ring.Nat
import Mathlib.Data.Rat.Init
import Netcatty.Serial.FileName

/-! # Records of the saved-host vault

The records that the vault keeps, with the check that each one passes before it is stored: hosts,
SSH keys, identities and proxy profiles.  A record keeps the fields that the vault reads; a host
carries its relations to other records in `compatibilityFields`, as JSON values.

Unicode lower-casing and the derived JSON decoders of two nested records are the fields of
`Externals`; nothing is assumed of them. -/

namespace Netcatty.Vault

open Serial (isControl isWhitespace trim)

/-! ### Text -/

abbrev Text := List Char

def utf8Len (s : Text) : ℕ := (s.map Char.utf8Size).sum

def eqIgnoreAsciiCase (s t : Text) : Bool := s.map Char.toLower == t.map Char.toLower

def containsText (needle s : Text) : Bool := s.tails.any needle.isPrefixOf

def isLowerHex (c : Char) : Bool := c.isDigit || ('a' ≤ c && c ≤ 'f')

inductive SavedSerialConfigError
  | missingPath | pathTooLong | unsafePath | invalidBaudRate | invalidDataBits | invalidStopBits
  | invalidBackspaceBehavior | endpointMismatch | malformedConfig
  deriving DecidableEq, Repr

inductive ValidationError
  | missingField (field : String)
  | tooLong (field : String) (maxBytes : ℕ)
  | unsafeCharacters (field : String)
  | internalWhitespace (field : String)
  | invalidPort
  | invalidSerialConfig (error : SavedSerialConfigError)
  | invalidProxyConfig
  | invalidGroupPath
  | invalidId
  | invalidOpaqueId (field : String)
  | invalidRevision
  | invalidTimestamps
  | unsupportedReferenceSource
  | unsupportedManagedKeySource
  | unsupportedReferenceAuthMethod
  | invalidSecretObjectLocator
  | invalidCustodyRevision
  | nonCanonicalField (field : String)
  | forbiddenCompatibilityField (key : Text)
  | compatibilityNestingTooDeep
  deriving DecidableEq, Repr

def recordVersion : ℕ := 1
def maxIdBytes : ℕ := 512
def maxLabelBytes : ℕ := 256
def maxHostnameBytes : ℕ := 253
def maxUsernameBytes : ℕ := 128
def maxProxyUsernameBytes : ℕ := 255
def maxProxyCommandBytes : ℕ := 32 * 1024
def maxFilePathBytes : ℕ := 32 * 1024
def maxSerialPathBytes : ℕ := 32 * 1024
def maxCompatibilityKeyBytes : ℕ := 256
def maxCompatibilityDepth : ℕ := 32
def secretObjectLocatorHexBytes : ℕ := 64
def maxGroupPathBytes : ℕ := 32 * 1024

/-- An opaque id: not empty, of bounded length, without control characters. -/
def isOpaqueId (value : Text) : Bool :=
  !(value.isEmpty || maxIdBytes < utf8Len value || value.any isControl)

def validateId (value : Text) : Except ValidationError Unit :=
  if isOpaqueId value then .ok () else .error .invalidId

def validateOpaqueId (field : String) (value : Text) : Except ValidationError Unit :=
  if isOpaqueId value then .ok () else .error (.invalidOpaqueId field)

def validateSecretObjectLocator (value : Text) : Except ValidationError Unit :=
  if utf8Len value ≠ secretObjectLocatorHexBytes ∨ !value.all isLowerHex then
    .error .invalidSecretObjectLocator
  else .ok ()

def normalizeText (value : Text) (field : String) (maxBytes : ℕ) (rejectWhitespace required : Bool) :
    Except ValidationError Text :=
  if value.any isControl then .error (.unsafeCharacters field)
  else
    let value := trim value
    if required && value.isEmpty then .error (.missingField field)
    else if maxBytes < utf8Len value then .error (.tooLong field maxBytes)
    else if rejectWhitespace && value.any isWhitespace then .error (.internalWhitespace field)
    else .ok value

def normalizeLabel (value : Text) := normalizeText value "label" maxLabelBytes false true
def normalizeHostname (value : Text) := normalizeText value "hostname" maxHostnameBytes true true
def normalizeProxyHostname (value : Text) := normalizeText value "host" maxHostnameBytes true true
def normalizeUsername (value : Text) := normalizeText value "username" maxUsernameBytes true false
def normalizeProxyUsername (value : Text) :=
  normalizeText value "username" maxProxyUsernameBytes false false

def normalizeSerialPath (value : Text) : Except SavedSerialConfigError Text :=
  if value.any isControl then .error .unsafePath
  else
    let value := trim value
    if value.isEmpty then .error .missingPath
    else if maxSerialPathBytes < utf8Len value then .error .pathTooLong
    else .ok value

def normalizeProxyCommand (value : Text) : Except ValidationError Text :=
  if value.contains '\x00' then .error (.unsafeCharacters "command")
  else
    let value := trim value
    if value.isEmpty then .error (.missingField "command")
    else if maxProxyCommandBytes < utf8Len value then .error (.tooLong "command" maxProxyCommandBytes)
    else .ok value

def normalizeFilePath (value : Text) : Except ValidationError Text :=
  if value.isEmpty then .error (.missingField "filePath")
  else if maxFilePathBytes < utf8Len value then .error (.tooLong "filePath" maxFilePathBytes)
  else if value.any isControl then .error (.unsafeCharacters "filePath")
  else .ok value

def validateCanonical (field : String) (value : Text) (canonical : Except ValidationError Text) :
    Except ValidationError Unit := do
  if value = (← canonical) then .ok () else .error (.nonCanonicalField field)

def validateToken (field : String) (value : Text) : Except ValidationError Unit :=
  if value.isEmpty || 64 < utf8Len value then .error (.tooLong field 64)
  else if value.any fun c => isControl c || isWhitespace c then .error (.unsafeCharacters field)
  else .ok ()

/-! ### JSON values -/

inductive Value
  | null
  | bool (value : Bool)
  | integer (value : ℤ)
  | float (value : ℚ)
  | string (value : Text)
  | array (values : List Value)
  | object (fields : List (Text × Value))

def Value.isNull : Value → Bool
  | .null => true
  | _ => false

def Value.isBoolOrNull : Value → Bool
  | .bool _ | .null => true
  | _ => false

mutual

def Value.decideEq : (a b : Value) → Decidable (a = b)
  | .null, .null => isTrue rfl
  | .bool a, .bool b => decidable_of_iff (a = b) (by simp)
  | .integer a, .integer b => decidable_of_iff (a = b) (by simp)
  | .float a, .float b => decidable_of_iff (a = b) (by simp)
  | .string a, .string b => decidable_of_iff (a = b) (by simp)
  | .array a, .array b =>
    match Value.decideEqValues a b with
    | isTrue h => isTrue (by rw [h])
    | isFalse h => isFalse (by simpa using h)
  | .object a, .object b =>
    match Value.decideEqFields a b with
    | isTrue h => isTrue (by rw [h])
    | isFalse h => isFalse (by simpa using h)
  | .null, .bool _ | .null, .integer _ | .null, .float _ | .null, .string _ | .null, .array _
  | .null, .object _ | .bool _, .null | .bool _, .integer _ | .bool _, .float _
  | .bool _, .string _ | .bool _, .array _ | .bool _, .object _ | .integer _, .null
  | .integer _, .bool _ | .integer _, .float _ | .integer _, .string _ | .integer _, .array _
  | .integer _, .object _ | .float _, .null | .float _, .bool _ | .float _, .integer _
  | .float _, .string _ | .float _, .array _ | .float _, .object _ | .string _, .null
  | .string _, .bool _ | .string _, .integer _ | .string _, .float _ | .string _, .array _
  | .string _, .object _ | .array _, .null | .array _, .bool _ | .array _, .integer _
  | .array _, .float _ | .array _, .string _ | .array _, .object _ | .object _, .null
  | .object _, .bool _ | .object _, .integer _ | .object _, .float _ | .object _, .string _
  | .object _, .array _ => isFalse (by simp)

def Value.decideEqValues : (a b : List Value) → Decidable (a = b)
  | [], [] => isTrue rfl
  | [], _ :: _ | _ :: _, [] => isFalse (by simp)
  | a :: as, b :: bs =>
    match Value.decideEq a b, Value.decideEqValues as bs with
    | isTrue h, isTrue h' => isTrue (by rw [h, h'])
    | isFalse h, _ | _, isFalse h => isFalse (by simp [h])

def Value.decideEqFields : (a b : List (Text × Value)) → Decidable (a = b)
  | [], [] => isTrue rfl
  | [], _ :: _ | _ :: _, [] => isFalse (by simp)
  | (k, a) :: as, (l, b) :: bs =>
    match instDecidableEqList k l, Value.decideEq a b, Value.decideEqFields as bs with
    | isTrue h, isTrue h', isTrue h'' => isTrue (by rw [h, h', h''])
    | isFalse h, _, _ | _, isFalse h, _ | _, _, isFalse h => isFalse (by simp [h])

end

instance : DecidableEq Value := Value.decideEq

/-- Compatibility fields in key order. -/
abbrev Fields := List (Text × Value)

def Fields.get? (fields : Fields) (key : String) : Option Value := fields.lookup key.toList

/-! ### Compatibility fields -/

def normalizeCompatibilityKey (key : Text) : Text := (key.filter Char.isAlphanum).map Char.toLower

def isSecretStatusKey (key : Text) : Bool :=
  ["savepassword", "haspassword", "hassavedcredential", "savepassphrase", "haspassphrase",
    "hasprivatekey", "hascredential"].any (·.toList = normalizeCompatibilityKey key)

def isForbiddenCompatibilityKey (key : Text) : Bool :=
  let normalized := normalizeCompatibilityKey key
  !isSecretStatusKey normalized &&
    (["password", "passphrase", "privatekey", "credentialref", "credentialid",
        "credentialkey"].any (containsText ·.toList normalized) ||
      ["credential", "credentials", "secret"].any (·.toList = normalized) ||
      "secret".toList.isSuffixOf normalized)

def isReservedCompatibilityKey (key : Text) : Bool :=
  ["recordVersion", "id", "revision", "label", "hostname", "port", "username", "protocol",
    "authMethod", "authPolicyVersion", "createdAt", "updatedAt"].any (·.toList = key)

def isReservedKeyReferenceField (key : Text) : Bool :=
  ["id", "label", "filePath", "category", "source", "createdAt", "updatedAt"].any (·.toList = key)

def isReservedManagedKeyField (key : Text) : Bool :=
  let normalized := normalizeCompatibilityKey key
  ["id", "label", "filepath", "category", "source", "privatekey", "publickey", "certificate",
      "passphrase", "savepassphrase", "hassavedpassphrase", "custody", "backendlocator",
      "custodyrevision", "createdat", "updatedat", "secretstoreuuid", "storeuuid",
      "masterkeyaccount", "masterkeyepoch", "masteraccount", "keyringaccount", "objectdigest",
      "entitydigest", "blobgeneration", "blobslot", "ciphertext", "nonce"].any
        (·.toList = normalized) ||
    "filepath".toList.isSuffixOf normalized ||
    ["masterkey", "secretstore", "objectdigest", "blobgeneration"].any
      (containsText ·.toList normalized)

def isReservedIdentityReferenceField (key : Text) : Bool :=
  ["id", "label", "username", "authMethod", "keyId", "createdAt", "updatedAt"].any (·.toList = key)

def isReservedPasswordIdentityField (key : Text) : Bool :=
  let normalized := normalizeCompatibilityKey key
  ["recordversion", "id", "revision", "label", "username", "authmethod", "keyid",
      "hassavedcredential", "createdat", "updatedat", "credentialaccount", "credentiallocator",
      "hascredential", "haspassword", "savepassword", "savepassphrase", "haspassphrase",
      "hasprivatekey", "keyringaccount", "ciphertext", "nonce"].any (·.toList = normalized) ||
    ["credential", "keyring", "secretstore"].any (containsText ·.toList normalized) ||
    ["locator", "account"].any (·.toList.isSuffixOf normalized)

def isReservedProxyConfigField (key : Text) : Bool :=
  ["type", "host", "hostname", "port", "command", "identityid", "username", "hassavedcredential",
    "hascredential", "haspassword", "savepassword", "credential", "credentials", "password"].any
      (·.toList = normalizeCompatibilityKey key)

def isReservedProxyProfileField (key : Text) : Bool :=
  ["recordversion", "id", "revision", "label", "config", "createdat", "updatedat"].any
    (·.toList = normalizeCompatibilityKey key)

/-- What is asked of one entry before its value is looked into. -/
def checkCompatibilityEntry (depth : ℕ) (reserved : Text → Bool) (key : Text) (value : Value) :
    Except ValidationError Unit :=
  if maxCompatibilityDepth < depth then .error .compatibilityNestingTooDeep
  else if key.isEmpty || maxCompatibilityKeyBytes < utf8Len key || key.any isControl ||
      reserved key || isForbiddenCompatibilityKey key then
    .error (.forbiddenCompatibilityField key)
  else if isSecretStatusKey key && !value.isBoolOrNull then
    .error (.forbiddenCompatibilityField key)
  else .ok ()

def checkCompatibilityDepth (depth : ℕ) : Except ValidationError Unit :=
  if maxCompatibilityDepth < depth then .error .compatibilityNestingTooDeep else .ok ()

mutual

def validateCompatibilityEntry (depth : ℕ) (reserved nestedReserved : Text → Bool) (key : Text) :
    Value → Except ValidationError Unit
  | .array values => do
    checkCompatibilityEntry depth reserved key (.array values)
    validateCompatibilityValues (depth + 1) nestedReserved values
  | .object fields => do
    checkCompatibilityEntry depth reserved key (.object fields)
    validateCompatibilityEntries (depth + 1) nestedReserved fields
  | value => checkCompatibilityEntry depth reserved key value

def validateCompatibilityValue (depth : ℕ) (reserved : Text → Bool) :
    Value → Except ValidationError Unit
  | .array values => do
    checkCompatibilityDepth depth
    validateCompatibilityValues (depth + 1) reserved values
  | .object fields => do
    checkCompatibilityDepth depth
    validateCompatibilityEntries (depth + 1) reserved fields
  | _ => checkCompatibilityDepth depth

def validateCompatibilityValues (depth : ℕ) (reserved : Text → Bool) :
    List Value → Except ValidationError Unit
  | [] => .ok ()
  | value :: values => do
    validateCompatibilityValue depth reserved value
    validateCompatibilityValues depth reserved values

def validateCompatibilityEntries (depth : ℕ) (reserved : Text → Bool) :
    List (Text × Value) → Except ValidationError Unit
  | [] => .ok ()
  | (key, value) :: fields => do
    validateCompatibilityEntry depth reserved reserved key value
    validateCompatibilityEntries depth reserved fields

end

def validateCompatibilityFieldsWith (reserved : Text → Bool) (fields : Fields) :
    Except ValidationError Unit := validateCompatibilityEntries 0 reserved fields

/-- The segments of a slash-separated path that hold text. -/
def pathSegments (value : Text) : List Text := (value.splitOn '/').filter fun s => !s.isEmpty

def normalizeGroupPath (value : Text) : Option Text :=
  let segments := pathSegments value
  let normalized := ['/'].intercalate segments
  if segments.isEmpty || maxGroupPathBytes < utf8Len normalized then none else some normalized

def parseGroupPath : Option Value → Except ValidationError (Option Text)
  | none | some .null => .ok none
  | some (.string path) =>
    if (pathSegments path).isEmpty then .ok none
    else
      match normalizeGroupPath path with
      | some path => .ok (some path)
      | none => .error .invalidGroupPath
  | some _ => .error .invalidGroupPath

/-- The flattened fields of a host: an inline proxy and a group path have rules of their own. -/
def validateCompatibilityFields : Fields → Except ValidationError Unit
  | [] => .ok ()
  | (key, value) :: fields => do
    if key = "proxyConfig".toList then
      if !value.isNull then validateCompatibilityValue 1 (fun _ => false) value
    else if key = "group".toList then
      let _ ← parseGroupPath (some value)
    else
      validateCompatibilityEntry 0 isReservedCompatibilityKey (fun _ => false) key value
    validateCompatibilityFields fields

end Netcatty.Vault
