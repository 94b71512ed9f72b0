import Netcatty.Vault.Catalogs

/-! # Inherited group defaults

A saved group record sets, clears or inherits each of its defaults.  The defaults of a group path
are merged from the root to the leaf (`resolveGroupDefaultsWithProvenance`): a record that selects
an identity drops the manual credentials above it, and one that brings manual credentials drops the
identity above it.  Passwords are kept elsewhere, under the id of the record that defined them, so
the merge also keeps the owner of each credential.

The vault graph reads only the relations of a record to others (`Vault.SavedGroupDefaults`); here a
record has all of its fields, and is valid where the graph's record is
(`SavedGroupConfig.relations_isValid`). -/

namespace Netcatty.Vault.GroupConfig

/-! ### Overrides -/

def isInherit {α : Type} : SavedGroupOverride α → Bool
  | .inherit => true
  | _ => false

def isDefined {α : Type} (override : SavedGroupOverride α) : Bool := !isInherit override

def isSet {α : Type} : SavedGroupOverride α → Bool
  | .set _ => true
  | _ => false

@[simp] theorem isDefined_inherit {α : Type} :
    isDefined (.inherit : SavedGroupOverride α) = false := rfl
@[simp] theorem isDefined_clear {α : Type} : isDefined (.clear : SavedGroupOverride α) = true := rfl
@[simp] theorem isDefined_set {α : Type} (value : α) : isDefined (.set value) = true := rfl
@[simp] theorem isSet_inherit {α : Type} : isSet (.inherit : SavedGroupOverride α) = false := rfl
@[simp] theorem isSet_clear {α : Type} : isSet (.clear : SavedGroupOverride α) = false := rfl
@[simp] theorem isSet_set {α : Type} (value : α) : isSet (.set value) = true := rfl

def mergeFrom {α : Type} (override child : SavedGroupOverride α) : SavedGroupOverride α :=
  if isDefined child then child else override

/-- The state of a password that is stored elsewhere. -/
inductive SavedGroupCredentialOverride
  | inherit
  | clear
  | storedHint
  deriving DecidableEq

def SavedGroupCredentialOverride.isDefined : SavedGroupCredentialOverride → Bool
  | .inherit => false
  | _ => true

@[simp] theorem SavedGroupCredentialOverride.isDefined_inherit : inherit.isDefined = false := rfl
@[simp] theorem SavedGroupCredentialOverride.isDefined_clear : clear.isDefined = true := rfl
@[simp] theorem SavedGroupCredentialOverride.isDefined_storedHint : storedHint.isDefined = true :=
  rfl

def SavedGroupCredentialOverride.mergeFrom (override child : SavedGroupCredentialOverride) :
    SavedGroupCredentialOverride :=
  if child.isDefined then child else override

def proxyMergeFrom (override child : SavedGroupProxyOverride) : SavedGroupProxyOverride :=
  match child with
  | .inherit => override
  | child => child

/-! ### Defaults -/

inductive SavedGroupAuthMethod
  | auto | password | key | certificate
  deriving DecidableEq

inductive SavedGroupProtocol
  | ssh | telnet
  deriving DecidableEq

inductive SavedGroupDeviceType
  | general | network
  deriving DecidableEq

inductive SavedGroupStartupCommandRunMode
  | lineDelay | paste
  deriving DecidableEq

inductive SavedGroupBackspaceBehavior
  | ctrlH
  deriving DecidableEq

structure SavedGroupEnvironmentVariable where
  name : Text
  value : Text
  deriving DecidableEq

structure SavedGroupDefaults where
  order : SavedGroupOverride ℚ
  username : SavedGroupOverride Text
  password : SavedGroupCredentialOverride
  savePassword : SavedGroupOverride Bool
  authMethod : SavedGroupOverride SavedGroupAuthMethod
  identityId : SavedGroupOverride SavedGroupIdentityReference
  identityFileId : SavedGroupOverride SavedSshKeyReferenceId
  identityFilePaths : SavedGroupOverride (List Text)
  port : SavedGroupOverride ℕ
  protocol : SavedGroupOverride SavedGroupProtocol
  deviceType : SavedGroupOverride SavedGroupDeviceType
  agentForwarding : SavedGroupOverride Bool
  proxy : SavedGroupProxyOverride
  hostChain : SavedGroupOverride (List SavedHostId)
  startupCommand : SavedGroupOverride Text
  startupCommandRunMode : SavedGroupOverride SavedGroupStartupCommandRunMode
  loginScriptId : SavedGroupOverride Text
  legacyAlgorithms : SavedGroupOverride Bool
  skipEcdsaHostKey : SavedGroupOverride Bool
  algorithms : SavedGroupOverride SavedGroupAlgorithmOverrides
  environmentVariables : SavedGroupOverride (List SavedGroupEnvironmentVariable)
  charset : SavedGroupOverride Text
  moshEnabled : SavedGroupOverride Bool
  moshServerPath : SavedGroupOverride Text
  etEnabled : SavedGroupOverride Bool
  etPort : SavedGroupOverride ℕ
  telnetEnabled : SavedGroupOverride Bool
  telnetPort : SavedGroupOverride ℕ
  telnetIdentityId : SavedGroupOverride SavedPasswordIdentityId
  telnetUsername : SavedGroupOverride Text
  telnetPassword : SavedGroupCredentialOverride
  theme : SavedGroupOverride Text
  themeOverride : SavedGroupOverride Bool
  fontFamily : SavedGroupOverride Text
  fontFamilyOverride : SavedGroupOverride Bool
  fontSize : SavedGroupOverride ℚ
  fontSizeOverride : SavedGroupOverride Bool
  fontWeight : SavedGroupOverride ℚ
  fontWeightOverride : SavedGroupOverride Bool
  backspaceBehavior : SavedGroupOverride SavedGroupBackspaceBehavior
  deriving DecidableEq

namespace SavedGroupDefaults

/-- `default`: everything is inherited. -/
def empty : SavedGroupDefaults :=
  ⟨.inherit, .inherit, .inherit, .inherit, .inherit, .inherit, .inherit, .inherit, .inherit,
    .inherit, .inherit, .inherit, .inherit, .inherit, .inherit, .inherit, .inherit, .inherit,
    .inherit, .inherit, .inherit, .inherit, .inherit, .inherit, .inherit, .inherit, .inherit,
    .inherit, .inherit, .inherit, .inherit, .inherit, .inherit, .inherit, .inherit, .inherit,
    .inherit, .inherit, .inherit, .inherit⟩

def clearManualSshBundle (defaults : SavedGroupDefaults) : SavedGroupDefaults :=
  { defaults with
    username := .inherit
    password := .inherit
    savePassword := .inherit
    authMethod := .inherit
    identityFileId := .inherit
    identityFilePaths := .inherit }

def clearManualTelnetBundle (defaults : SavedGroupDefaults) : SavedGroupDefaults :=
  { defaults with telnetUsername := .inherit, telnetPassword := .inherit }

def hasManualSsh (child : SavedGroupDefaults) : Bool :=
  isDefined child.username || child.password.isDefined || isDefined child.savePassword ||
    isDefined child.authMethod || isDefined child.identityFileId ||
    isDefined child.identityFilePaths

def hasManualTelnet (child : SavedGroupDefaults) : Bool :=
  isDefined child.telnetUsername || child.telnetPassword.isDefined

/-- The first part of `merge_from`: an identity and manual credentials exclude each other. -/
def replaceSsh (defaults child : SavedGroupDefaults) : SavedGroupDefaults :=
  if isDefined child.identityId then defaults.clearManualSshBundle
  else if child.hasManualSsh then
    let replacesSelectedIdentity := isSet defaults.identityId
    let defaults := { defaults with identityId := .inherit }
    if replacesSelectedIdentity then defaults.clearManualSshBundle else defaults
  else defaults

def replaceTelnet (defaults child : SavedGroupDefaults) : SavedGroupDefaults :=
  if isDefined child.telnetIdentityId then defaults.clearManualTelnetBundle
  else if child.hasManualTelnet then
    let replacesSelectedIdentity := isSet defaults.telnetIdentityId
    let defaults := { defaults with telnetIdentityId := .inherit }
    if replacesSelectedIdentity then defaults.clearManualTelnetBundle else defaults
  else defaults

/-- A style and its flag; a flag that is unset leaves the style above it. -/
def mergeStylePair {α : Type} (value : SavedGroupOverride α) (flag : SavedGroupOverride Bool)
    (childValue : SavedGroupOverride α) (childFlag : SavedGroupOverride Bool) :
    SavedGroupOverride α × SavedGroupOverride Bool :=
  if childFlag = .set false then (value, .inherit)
  else (GroupConfig.mergeFrom value childValue, GroupConfig.mergeFrom flag childFlag)

/-- The second part of `merge_from`: each default that the child defines. -/
def mergeFields (self child : SavedGroupDefaults) : SavedGroupDefaults where
  order := GroupConfig.mergeFrom self.order child.order
  username := GroupConfig.mergeFrom self.username child.username
  password := self.password.mergeFrom child.password
  savePassword := GroupConfig.mergeFrom self.savePassword child.savePassword
  authMethod := GroupConfig.mergeFrom self.authMethod child.authMethod
  identityId := GroupConfig.mergeFrom self.identityId child.identityId
  identityFileId := GroupConfig.mergeFrom self.identityFileId child.identityFileId
  identityFilePaths := GroupConfig.mergeFrom self.identityFilePaths child.identityFilePaths
  port := GroupConfig.mergeFrom self.port child.port
  protocol := GroupConfig.mergeFrom self.protocol child.protocol
  deviceType := GroupConfig.mergeFrom self.deviceType child.deviceType
  agentForwarding := GroupConfig.mergeFrom self.agentForwarding child.agentForwarding
  proxy := proxyMergeFrom self.proxy child.proxy
  hostChain := GroupConfig.mergeFrom self.hostChain child.hostChain
  startupCommand := GroupConfig.mergeFrom self.startupCommand child.startupCommand
  startupCommandRunMode :=
    GroupConfig.mergeFrom self.startupCommandRunMode child.startupCommandRunMode
  loginScriptId := GroupConfig.mergeFrom self.loginScriptId child.loginScriptId
  legacyAlgorithms := GroupConfig.mergeFrom self.legacyAlgorithms child.legacyAlgorithms
  skipEcdsaHostKey := GroupConfig.mergeFrom self.skipEcdsaHostKey child.skipEcdsaHostKey
  algorithms := GroupConfig.mergeFrom self.algorithms child.algorithms
  environmentVariables :=
    GroupConfig.mergeFrom self.environmentVariables child.environmentVariables
  charset := GroupConfig.mergeFrom self.charset child.charset
  moshEnabled := GroupConfig.mergeFrom self.moshEnabled child.moshEnabled
  moshServerPath := GroupConfig.mergeFrom self.moshServerPath child.moshServerPath
  etEnabled := GroupConfig.mergeFrom self.etEnabled child.etEnabled
  etPort := GroupConfig.mergeFrom self.etPort child.etPort
  telnetEnabled := GroupConfig.mergeFrom self.telnetEnabled child.telnetEnabled
  telnetPort := GroupConfig.mergeFrom self.telnetPort child.telnetPort
  telnetIdentityId := GroupConfig.mergeFrom self.telnetIdentityId child.telnetIdentityId
  telnetUsername := GroupConfig.mergeFrom self.telnetUsername child.telnetUsername
  telnetPassword := self.telnetPassword.mergeFrom child.telnetPassword
  theme := (mergeStylePair self.theme self.themeOverride child.theme child.themeOverride).1
  themeOverride := (mergeStylePair self.theme self.themeOverride child.theme child.themeOverride).2
  fontFamily :=
    (mergeStylePair self.fontFamily self.fontFamilyOverride child.fontFamily
      child.fontFamilyOverride).1
  fontFamilyOverride :=
    (mergeStylePair self.fontFamily self.fontFamilyOverride child.fontFamily
      child.fontFamilyOverride).2
  fontSize :=
    (mergeStylePair self.fontSize self.fontSizeOverride child.fontSize child.fontSizeOverride).1
  fontSizeOverride :=
    (mergeStylePair self.fontSize self.fontSizeOverride child.fontSize child.fontSizeOverride).2
  fontWeight :=
    (mergeStylePair self.fontWeight self.fontWeightOverride child.fontWeight
      child.fontWeightOverride).1
  fontWeightOverride :=
    (mergeStylePair self.fontWeight self.fontWeightOverride child.fontWeight
      child.fontWeightOverride).2
  backspaceBehavior := GroupConfig.mergeFrom self.backspaceBehavior child.backspaceBehavior

def mergeFrom (self child : SavedGroupDefaults) : SavedGroupDefaults :=
  ((self.replaceSsh child).replaceTelnet child).mergeFields child

/-- The record that the vault graph keeps of the defaults. -/
def relations (settings : SavedGroupDefaults → Value) (defaults : SavedGroupDefaults) :
    Vault.SavedGroupDefaults where
  identityId := defaults.identityId
  identityFileId := defaults.identityFileId
  proxy := defaults.proxy
  hostChain := defaults.hostChain
  loginScriptId := defaults.loginScriptId
  algorithms := defaults.algorithms
  telnetIdentityId := defaults.telnetIdentityId
  settings := settings defaults

end SavedGroupDefaults

/-! ### Records -/

structure SavedGroupConfig where
  recordVersion : ℕ
  id : Text
  revision : ℕ
  path : Text
  defaults : SavedGroupDefaults
  createdAt : ℕ
  updatedAt : ℕ
  deriving DecidableEq

/-- The record that the vault graph keeps of a group. -/
def SavedGroupConfig.relations (settings : SavedGroupDefaults → Value)
    (config : SavedGroupConfig) : Vault.SavedGroupConfig where
  recordVersion := config.recordVersion
  id := config.id
  revision := config.revision
  path := config.path
  defaults := config.defaults.relations settings
  createdAt := config.createdAt
  updatedAt := config.updatedAt

/-- `validate`, which does not look at the settings. -/
def SavedGroupConfig.isValid (config : SavedGroupConfig) : Bool :=
  (config.relations fun _ => .null).isValid

theorem SavedGroupConfig.relations_isValid (settings : SavedGroupDefaults → Value)
    (config : SavedGroupConfig) : (config.relations settings).isValid = config.isValid := rfl

/-! ### Resolution -/

/-- `ancestors`: `A`, `A/B` and `A/B/C` for `A/B/C`. -/
def ancestors (path : Text) : List Text := go [] (path.splitOn '/')
where
  go (current : Text) : List Text → List Text
    | [] => []
    | segment :: rest =>
      let current := if current.isEmpty then segment else current ++ '/' :: segment
      current :: go current rest

/-- The record at a path in `by_path`: the last one. -/
def byPath (configs : List SavedGroupConfig) (path : Text) : Option SavedGroupConfig :=
  configs.foldl (fun found config => if config.path = path then some config else found) none

structure ResolvedSavedGroupDefaults where
  defaults : SavedGroupDefaults
  sshCredentialOwner : Option Text
  telnetCredentialOwner : Option Text
  inlineProxyCredentialOwner : Option Text
  deriving DecidableEq

def ResolvedSavedGroupDefaults.empty : ResolvedSavedGroupDefaults := ⟨.empty, none, none, none⟩

def inlineProxyHasSavedManualCredential : SavedProxyConfig → Bool
  | .http _ _ none _ true _ | .socks5 _ _ none _ true _ => true
  | _ => false

/-- The owner of a password after a record: `manual` and `identity` are what the record defines. -/
def mergeOwner {ι : Type} (owner : Option Text) (selected : SavedGroupOverride ι) (id : Text)
    (identity : SavedGroupOverride ι) (manual : Bool) (password : SavedGroupCredentialOverride) :
    Option Text :=
  let owner := if isDefined identity || manual && isSet selected then none else owner
  if isDefined identity then owner
  else
    match password with
    | .storedHint => some id
    | .clear => none
    | .inherit => owner

def mergeProxyOwner (owner : Option Text) (id : Text) : SavedGroupProxyOverride → Option Text
  | .inherit => owner
  | .inline config => if inlineProxyHasSavedManualCredential config then some id else none
  | .clear | .profile _ => none

def ResolvedSavedGroupDefaults.mergeRecord (resolved : ResolvedSavedGroupDefaults)
    (config : SavedGroupConfig) : ResolvedSavedGroupDefaults :=
  let child := config.defaults
  { defaults := resolved.defaults.mergeFrom child
    sshCredentialOwner := mergeOwner resolved.sshCredentialOwner resolved.defaults.identityId
      config.id child.identityId child.hasManualSsh child.password
    telnetCredentialOwner := mergeOwner resolved.telnetCredentialOwner
      resolved.defaults.telnetIdentityId config.id child.telnetIdentityId child.hasManualTelnet
      child.telnetPassword
    inlineProxyCredentialOwner :=
      mergeProxyOwner resolved.inlineProxyCredentialOwner config.id child.proxy }

def resolveGroupDefaultsWithProvenance (groupPath : Text) (configs : List SavedGroupConfig) :
    ResolvedSavedGroupDefaults :=
  (ancestors groupPath).foldl (fun resolved ancestor =>
    match byPath configs ancestor with
    | some config => resolved.mergeRecord config
    | none => resolved) .empty

/-- The records that the defaults of a path are merged from, from the root to the leaf. -/
def ancestorRecords (groupPath : Text) (configs : List SavedGroupConfig) : List SavedGroupConfig :=
  (ancestors groupPath).filterMap (byPath configs)

theorem resolve_eq_foldl (groupPath : Text) (configs : List SavedGroupConfig) :
    resolveGroupDefaultsWithProvenance groupPath configs =
      (ancestorRecords groupPath configs).foldl ResolvedSavedGroupDefaults.mergeRecord .empty := by
  unfold resolveGroupDefaultsWithProvenance ancestorRecords
  generalize ResolvedSavedGroupDefaults.empty = resolved
  induction ancestors groupPath generalizing resolved with
  | nil => rfl
  | cons ancestor rest ih =>
      rw [List.foldl_cons, ih]
      cases hfound : byPath configs ancestor with
      | none => rw [List.filterMap_cons_none hfound]
      | some config => rw [List.filterMap_cons_some hfound, List.foldl_cons]

theorem byPath_append_singleton (configs : List SavedGroupConfig) (config : SavedGroupConfig)
    (path : Text) : byPath (configs ++ [config]) path =
      if config.path = path then some config else byPath configs path := by
  unfold byPath
  rw [List.foldl_append, List.foldl_cons, List.foldl_nil]

theorem mem_of_byPath {configs : List SavedGroupConfig} {path : Text} {config : SavedGroupConfig}
    (h : byPath configs path = some config) : config ∈ configs ∧ config.path = path := by
  induction configs using List.reverseRecOn with
  | nil => cases h
  | append_singleton configs other ih =>
      rw [byPath_append_singleton] at h
      split at h
      · rename_i hpath
        cases h
        exact ⟨List.mem_append_right _ List.mem_cons_self, hpath⟩
      · obtain ⟨hmem, hpath⟩ := ih h
        exact ⟨List.mem_append_left _ hmem, hpath⟩

/-- Every record that is merged is one of the configurations, at an ancestor of the path. -/
theorem mem_ancestorRecords {groupPath : Text} {configs : List SavedGroupConfig}
    {config : SavedGroupConfig} (h : config ∈ ancestorRecords groupPath configs) :
    config ∈ configs ∧ config.path ∈ ancestors groupPath := by
  obtain ⟨ancestor, hancestor, hfound⟩ := List.mem_filterMap.mp h
  obtain ⟨hmem, hpath⟩ := mem_of_byPath hfound
  exact ⟨hmem, hpath ▸ hancestor⟩

end Netcatty.Vault.GroupConfig
