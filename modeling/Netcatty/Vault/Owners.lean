import Netcatty.Library.Uptake
import Netcatty.Vault.Projection
import Netcatty.Vault.Provenance

/-! # Owners of effective hosts

A projection names the right owners (`projects_iff`): the credential fields of the effective host
say that there is a credential exactly if it has an owner, and the owner is the host or the group
record that it comes from.  There are two exceptions.  A password of a group that has no owner refuses the
host, and a group that clears the proxy drops the owner of the host's own proxy. -/

namespace Netcatty.Vault.GroupConfig

open Catalog

/-! ### The projection -/

section Projection

variable (E : ProjectionExternals) (host : SavedHost) (groupConfigs : List SavedGroupConfig)

/-- Hosts whose SSH credentials and proxy are in use. -/
def isActive : Bool := !(host.protocol.isTelnet || host.protocol.isSerial)

def hostSshOwner : Option SavedHostConnectionCredentialOwner :=
  if isActive host && booleanField host.compatibilityFields "hasSavedCredential" then
    some (.host host.id)
  else none

def hostTelnetOwner : Option SavedHostConnectionCredentialOwner :=
  if host.protocol.isTelnet && booleanField host.compatibilityFields "hasSavedCredential" then
    some (.host host.id)
  else none

def hostProxyOwner (inline : Option SavedProxyConfig) :
    Option SavedHostConnectionCredentialOwner :=
  if isActive host && inline.any inlineProxyHasSavedManualCredential then some (.host host.id)
  else none

def sshStage (resolved : ResolvedSavedGroupDefaults) :
    Except SavedHostConnectionProjectionError SshProjection :=
  if isActive host then
    applySshDefaults host resolved host.compatibilityFields host.username (hostSshOwner host)
  else .ok ⟨host.compatibilityFields, host.username, hostSshOwner host⟩

def telnetStage (resolved : ResolvedSavedGroupDefaults) (fields : Fields) :
    Except SavedHostConnectionProjectionError
      (Fields × Option SavedHostConnectionCredentialOwner) :=
  if host.protocol.isSerial then .ok (fields, hostTelnetOwner host)
  else applyTelnetDefaults host resolved fields (hostTelnetOwner host)

def proxyStage (resolved : ResolvedSavedGroupDefaults) (inline : Option SavedProxyConfig)
    (fields : Fields) : Except SavedHostConnectionProjectionError
      (Fields × Option SavedHostConnectionCredentialOwner) :=
  if isActive host then applyProxyDefaults E resolved fields (hostProxyOwner host inline)
  else .ok (fields, hostProxyOwner host inline)

def hostChainStage (effectiveHost : SavedHost) :
    Except SavedHostConnectionProjectionError (List SavedHostId) :=
  if isActive host then
    parseEffectiveHostChain (effectiveHost.compatibilityFields.get? "hostChain")
  else .ok []

/-- The checks of the host that was put together. -/
def finishStage (resolved : ResolvedSavedGroupDefaults) (username : Text) (fields : Fields) :
    Except SavedHostConnectionProjectionError (SavedHost × List SavedHostId) := do
  let fields := applyNonCredentialDefaults resolved.defaults fields (isActive host)
  let effectiveHost ←
    orElse .invalidProjectedMetadata (withProjectedCompatibilityFields E host fields)
  let effectiveHost := { effectiveHost with username }
  orElse .invalidProjectedMetadata (effectiveHost.validate E.toExternals)
  let hostChainIds ← hostChainStage host effectiveHost
  return (effectiveHost, hostChainIds)

theorem projectSavedHostConnection_eq :
    projectSavedHostConnection E host groupConfigs = (do
      let resolved ← resolveHostGroup host groupConfigs
      let inline ← orElse .invalidHostMetadata (host.proxyConfig E.toExternals)
      let _ ← orElse .invalidHostMetadata host.proxyProfileId
      let ssh ← sshStage host resolved
      let telnet ← telnetStage host resolved ssh.fields
      let proxy ← proxyStage E host resolved inline telnet.1
      let finished ← finishStage E host resolved ssh.effectiveUsername proxy.1
      return ⟨finished.1, resolved.defaults, finished.2, ssh.credentialOwner, telnet.2,
        proxy.2⟩) := by
  unfold projectSavedHostConnection sshStage telnetStage proxyStage finishStage hostChainStage
    hostSshOwner hostTelnetOwner hostProxyOwner isActive
  cases htelnet : host.protocol.isTelnet <;> cases hserial : host.protocol.isSerial <;>
    simp

variable {E host groupConfigs}

theorem orElse_ok {α : Type} {error : SavedHostConnectionProjectionError}
    {result : Except ValidationError α} {a : α} (h : orElse error result = .ok a) :
    result = .ok a := by
  cases result with
  | ok b =>
      cases h
      rfl
  | error _ => cases h

theorem orElse_error {α : Type} {error error' : SavedHostConnectionProjectionError}
    {result : Except ValidationError α} (h : orElse error result = .error error') :
    error' = error := by
  cases result with
  | ok b => cases h
  | error _ =>
      cases h
      rfl

theorem finishStage_ok {resolved : ResolvedSavedGroupDefaults} {username : Text} {fields : Fields}
    {finished : SavedHost × List SavedHostId}
    (h : finishStage E host resolved username fields = .ok finished) :
    finished.1 = { host with
      username
      compatibilityFields :=
        applyNonCredentialDefaults resolved.defaults fields (isActive host) } := by
  unfold finishStage at h
  obtain ⟨projected, hprojected, h⟩ := bind_ok_iff.mp h
  obtain ⟨-, h⟩ := check_ok_iff.mp h
  obtain ⟨chain, -, h⟩ := bind_ok_iff.mp h
  have hprojected := orElse_ok hprojected
  unfold withProjectedCompatibilityFields at hprojected
  obtain ⟨-, hprojected⟩ := check_ok_iff.mp hprojected
  obtain ⟨-, hprojected⟩ := check_ok_iff.mp hprojected
  cases hprojected
  cases h
  rfl

theorem parseEffectiveHostChain_error {value : Option Value}
    {error : SavedHostConnectionProjectionError}
    (h : parseEffectiveHostChain value = .error error) : error = .invalidHostMetadata := by
  unfold parseEffectiveHostChain at h
  dsimp only at h
  split at h
  · cases h
  · cases h
    rfl

theorem finishStage_ne_missing {resolved : ResolvedSavedGroupDefaults} {username : Text}
    {fields : Fields} :
    finishStage E host resolved username fields ≠ .error .missingCredentialProvenance := by
  intro h
  unfold finishStage at h
  rcases bind_error_iff.mp h with h | ⟨projected, -, h⟩
  · cases orElse_error h
  rcases bind_error_iff.mp h with h | ⟨-, -, h⟩
  · cases orElse_error h
  rcases bind_error_iff.mp h with h | ⟨chain, -, h⟩
  · unfold hostChainStage at h
    split at h
    · cases parseEffectiveHostChain_error h
    · cases h
  · cases h

/-! ### Passwords without an owner -/

/-- Whether the host has no SSH password of its own, and takes that of its group. -/
def AsksForSshPassword (host : SavedHost) : Prop :=
  isActive host = true ∧
    (host.compatibilityFields.get? "identityId").any jsTruthy = false ∧
    hostBlocksGroupPassword host.compatibilityFields = false

/-- Whether the host has no Telnet password of its own, and takes that of its group. -/
def AsksForTelnetPassword (host : SavedHost) : Prop :=
  host.protocol.isSerial = false ∧ hostTelnetOwner host = none ∧
    hostTelnetManual host host.compatibilityFields = false

/-- **A host that its group gives a password without an owner**: the relations of the host can be
read, and a record of its group clears the identity beside the password that the host would take. -/
def MissingProvenance (E : ProjectionExternals) (host : SavedHost)
    (groupConfigs : List SavedGroupConfig) : Prop :=
  ∃ path inline profile,
    parseGroupPath (host.compatibilityFields.get? "group") = .ok (some path) ∧
    host.proxyConfig E.toExternals = .ok inline ∧ host.proxyProfileId = .ok profile ∧
    (AsksForSshPassword host ∧ sshFields.ClearsBeside (ancestorRecords path groupConfigs) ∨
      AsksForTelnetPassword host ∧ telnetFields.ClearsBeside (ancestorRecords path groupConfigs))

theorem resolveHostGroup_cases {resolved : ResolvedSavedGroupDefaults}
    (h : resolveHostGroup host groupConfigs = .ok resolved) :
    (parseGroupPath (host.compatibilityFields.get? "group") = .ok none ∧ resolved = .empty) ∨
      ∃ path, parseGroupPath (host.compatibilityFields.get? "group") = .ok (some path) ∧
        resolved = resolveGroupDefaultsWithProvenance path groupConfigs := by
  unfold resolveHostGroup at h
  split at h
  · cases h
  · rename_i hpath
    cases h
    exact .inl ⟨hpath, rfl⟩
  · rename_i path hpath
    cases h
    exact .inr ⟨path, hpath, rfl⟩

theorem resolveHostGroup_ne_missing :
    resolveHostGroup host groupConfigs ≠ .error .missingCredentialProvenance := by
  intro h
  unfold resolveHostGroup at h
  split at h <;> cases h

/-- The records that a host takes its defaults from. -/
theorem resolveHostGroup_chain {resolved : ResolvedSavedGroupDefaults}
    (h : resolveHostGroup host groupConfigs = .ok resolved) :
    ∃ chain, resolved = chain.foldl ResolvedSavedGroupDefaults.mergeRecord .empty ∧
      (∀ record ∈ chain, record ∈ groupConfigs) ∧
      (chain ≠ [] → ∃ path, parseGroupPath (host.compatibilityFields.get? "group") =
        .ok (some path) ∧ chain = ancestorRecords path groupConfigs) := by
  rcases resolveHostGroup_cases h with ⟨-, rfl⟩ | ⟨path, hpath, rfl⟩
  · exact ⟨[], rfl, fun record hrecord => absurd hrecord List.not_mem_nil,
      fun h => absurd rfl h⟩
  · exact ⟨ancestorRecords path groupConfigs, resolve_eq_foldl path groupConfigs,
      fun record hrecord => (mem_ancestorRecords hrecord).1, fun _ => ⟨path, hpath, rfl⟩⟩

/-- A group that clears the identity beside a password has at least one record. -/
theorem CredentialFields.ClearsBeside.ne_nil {ι : Type} {F : CredentialFields ι}
    {chain : List SavedGroupConfig} (h : F.ClearsBeside chain) : chain ≠ [] := by
  obtain ⟨above, record, below, rfl, -⟩ := h
  simp

/-- The SSH defaults leave what the Telnet defaults read of a host. -/
theorem hostTelnetManual_congr {fields : Fields}
    (htelnet : host.protocol.isTelnet = true → fields = host.compatibilityFields)
    (hframe : SshFrame host.compatibilityFields fields) :
    hostTelnetManual host fields = hostTelnetManual host host.compatibilityFields := by
  cases hprotocol : host.protocol.isTelnet with
  | true => rw [htelnet hprotocol]
  | false =>
      unfold hostTelnetManual
      rw [hframe "telnetIdentityId" (by decide), hframe "telnetUsername" (by decide),
        hframe "telnetPassword" (by decide), hprotocol]
      simp only [Bool.false_and]

/-- What the first stage leaves to the others. -/
theorem sshStage_frame {resolved : ResolvedSavedGroupDefaults} {ssh : SshProjection}
    (h : sshStage host resolved = .ok ssh) :
    Keeps host.compatibilityFields ssh.fields ∧ SshFrame host.compatibilityFields ssh.fields ∧
      (isActive host = false → ssh.fields = host.compatibilityFields) ∧
      (host.username.isEmpty = false → ssh.effectiveUsername = host.username) := by
  unfold sshStage at h
  split at h
  · rename_i hactive
    have hcases := applySshDefaults_cases host resolved host.compatibilityFields host.username
      (hostSshOwner host)
    rw [h] at hcases
    cases hcases with
    | kept ssh hkeeps hframe husername =>
        exact ⟨hkeeps, hframe, fun hinactive => by simp [hinactive] at hactive, husername⟩
    | inherited ssh hkeeps hframe husername =>
        exact ⟨hkeeps, hframe, fun hinactive => by simp [hinactive] at hactive, husername⟩
  · cases h
    exact ⟨Keeps.refl _, fun _ _ => rfl, fun _ => rfl, fun _ => rfl⟩

theorem isActive_of_telnet (h : host.protocol.isTelnet = true) : isActive host = false := by
  simp [isActive, h]

theorem sshStage_missing_iff {resolved : ResolvedSavedGroupDefaults} :
    sshStage host resolved = .error .missingCredentialProvenance ↔
      AsksForSshPassword host ∧ resolved.defaults.password = .storedHint ∧
        resolved.sshCredentialOwner = none ∧ isSet resolved.defaults.identityId = false := by
  unfold sshStage AsksForSshPassword
  cases hactive : isActive host with
  | false => simp
  | true =>
      rw [if_pos rfl]
      have hcases := applySshDefaults_cases host resolved host.compatibilityFields host.username
        (hostSshOwner host)
      generalize applySshDefaults host resolved host.compatibilityFields host.username
        (hostSshOwner host) = outcome at hcases ⊢
      constructor
      · rintro rfl
        cases hcases with
        | missing hinherits hnone =>
            obtain ⟨hidentity, hblocks, hidle, hpassword⟩ := hinherits
            exact ⟨⟨rfl, hidentity, hblocks⟩, hpassword, hnone, hidle⟩
      · rintro ⟨⟨-, hidentity, hblocks⟩, hpassword, hnone, hidle⟩
        cases hcases with
        | kept ssh _ _ _ hinherits => exact absurd ⟨hidentity, hblocks, hidle, hpassword⟩ hinherits
        | inherited ssh _ _ _ id _ hid =>
            rw [hnone] at hid
            cases hid
        | missing => rfl

theorem telnetStage_missing_iff {resolved : ResolvedSavedGroupDefaults} {ssh : SshProjection}
    (hssh : sshStage host resolved = .ok ssh) :
    telnetStage host resolved ssh.fields = .error .missingCredentialProvenance ↔
      AsksForTelnetPassword host ∧ resolved.defaults.telnetPassword = .storedHint ∧
        resolved.telnetCredentialOwner = none ∧
        isSet resolved.defaults.telnetIdentityId = false := by
  obtain ⟨-, hframe, hinactive, -⟩ := sshStage_frame hssh
  have hmanual := hostTelnetManual_congr (fun h => hinactive (isActive_of_telnet h)) hframe
  unfold telnetStage AsksForTelnetPassword
  cases hserial : host.protocol.isSerial with
  | true => simp
  | false =>
      rw [if_neg (by decide)]
      have hcases := applyTelnetDefaults_cases host resolved ssh.fields (hostTelnetOwner host)
      generalize applyTelnetDefaults host resolved ssh.fields (hostTelnetOwner host) = outcome
        at hcases ⊢
      constructor
      · rintro rfl
        cases hcases with
        | missing hinherits hnone =>
            obtain ⟨hfree, hown, hidle, hpassword⟩ := hinherits
            exact ⟨⟨rfl, hfree, hmanual ▸ hown⟩, hpassword, hnone, hidle⟩
      · rintro ⟨⟨-, hfree, hown⟩, hpassword, hnone, hidle⟩
        cases hcases with
        | applied fields' owner' _ _ hinherits =>
            exact absurd hnone (hinherits ⟨hfree, hmanual ▸ hown, hidle, hpassword⟩)
        | missing => rfl

theorem sshStage_error {resolved : ResolvedSavedGroupDefaults}
    {error : SavedHostConnectionProjectionError} (h : sshStage host resolved = .error error) :
    error = .missingCredentialProvenance := by
  unfold sshStage at h
  split at h
  · have hcases := applySshDefaults_cases host resolved host.compatibilityFields host.username
      (hostSshOwner host)
    rw [h] at hcases
    cases hcases
    rfl
  · cases h

theorem proxyStage_ne_missing {chain : List SavedGroupConfig}
    {resolved : ResolvedSavedGroupDefaults} (howned : ProxyOwned chain resolved)
    {inline : Option SavedProxyConfig} {fields : Fields} :
    proxyStage E host resolved inline fields ≠ .error .missingCredentialProvenance := by
  intro h
  unfold proxyStage at h
  split at h
  · have hcases := applyProxyDefaults_cases E resolved fields (hostProxyOwner host inline)
    rw [h] at hcases
    cases hcases with
    | missing config hproxy hsaved hnone =>
        obtain ⟨-, record, -, -, hid, -, -⟩ := howned.1 config hproxy hsaved
        rw [hnone] at hid
        cases hid
  · cases h

/-- **The projection misses an owner** exactly for the hosts that their group gives a password
without one. -/
theorem project_missing_iff :
    projectSavedHostConnection E host groupConfigs = .error .missingCredentialProvenance ↔
      MissingProvenance E host groupConfigs := by
  rw [projectSavedHostConnection_eq]
  constructor
  · intro h
    rcases bind_error_iff.mp h with h | ⟨resolved, hresolved, h⟩
    · exact absurd h resolveHostGroup_ne_missing
    rcases bind_error_iff.mp h with h | ⟨inline, hinline, h⟩
    · cases orElse_error h
    rcases bind_error_iff.mp h with h | ⟨profile, hprofile, h⟩
    · cases orElse_error h
    obtain ⟨chain, rfl, -, hchain⟩ := resolveHostGroup_chain hresolved
    rcases bind_error_iff.mp h with h | ⟨ssh, hssh, h⟩
    · obtain ⟨hasks, hunowned⟩ := sshStage_missing_iff.mp h
      have hclears : sshFields.ClearsBeside chain := (sshFields.unowned_iff chain).mp hunowned
      obtain ⟨path, hpath, rfl⟩ := hchain hclears.ne_nil
      exact ⟨path, inline, profile, hpath, orElse_ok hinline, orElse_ok hprofile,
        .inl ⟨hasks, hclears⟩⟩
    rcases bind_error_iff.mp h with h | ⟨telnet, htelnet, h⟩
    · obtain ⟨hasks, hunowned⟩ := (telnetStage_missing_iff hssh).mp h
      have hclears : telnetFields.ClearsBeside chain := (telnetFields.unowned_iff chain).mp hunowned
      obtain ⟨path, hpath, rfl⟩ := hchain hclears.ne_nil
      exact ⟨path, inline, profile, hpath, orElse_ok hinline, orElse_ok hprofile,
        .inr ⟨hasks, hclears⟩⟩
    rcases bind_error_iff.mp h with h | ⟨proxy, -, h⟩
    · exact absurd h (proxyStage_ne_missing (proxyOwned_foldl chain))
    rcases bind_error_iff.mp h with h | ⟨finished, -, h⟩
    · exact absurd h finishStage_ne_missing
    · cases h
  · rintro ⟨path, inline, profile, hpath, hinline, hprofile, hasks⟩
    have hresolved : resolveHostGroup host groupConfigs =
        .ok (resolveGroupDefaultsWithProvenance path groupConfigs) := by
      unfold resolveHostGroup
      rw [hpath]
    refine bind_error_iff.mpr (.inr ⟨_, hresolved, ?_⟩)
    refine bind_error_iff.mpr (.inr ⟨inline, by rw [hinline]; rfl, ?_⟩)
    refine bind_error_iff.mpr (.inr ⟨profile, by rw [hprofile]; rfl, ?_⟩)
    rw [resolve_eq_foldl]
    rcases hasks with ⟨hasks, hclears⟩ | ⟨hasks, hclears⟩
    · exact bind_error_iff.mpr (.inl (sshStage_missing_iff.mpr
        ⟨hasks, (sshFields.unowned_iff _).mpr hclears⟩))
    · cases hssh : sshStage host ((ancestorRecords path groupConfigs).foldl
          ResolvedSavedGroupDefaults.mergeRecord .empty) with
      | error error =>
          cases sshStage_error hssh
          rfl
      | ok ssh =>
          exact bind_error_iff.mpr (.inr ⟨ssh, rfl, bind_error_iff.mpr (.inl
            ((telnetStage_missing_iff hssh).mpr
              ⟨hasks, (telnetFields.unowned_iff _).mpr hclears⟩))⟩)

/-! ### Owners -/

/-- The derived encoder of an inline proxy, and the decoder that reads it back. -/
structure EncodesProxies (E : ProjectionExternals) : Prop where
  object : ∀ config, ∃ fields, E.proxyConfigToValue config = .object fields
  decode : ∀ config, config.validate = .ok () →
    E.proxyConfigFromValue (E.proxyConfigToValue config) = some config

theorem EncodesProxies.parse (h : EncodesProxies E) {config : SavedProxyConfig}
    (hvalid : config.validate = .ok ()) :
    parseProxyConfig E.toExternals (some (E.proxyConfigToValue config)) = .ok (some config) := by
  obtain ⟨fields, hfields⟩ := h.object config
  have hdecode := h.decode config hvalid
  rw [hfields] at hdecode ⊢
  simp only [parseProxyConfig, hdecode]

/-- **The owners of a projection.**  The credential fields of the effective host say that there is a
credential exactly if it has an owner, the host or the group record that it comes from; the host's
own fields are kept. -/
structure NamesOwners (E : ProjectionExternals) (host : SavedHost)
    (groupConfigs : List SavedGroupConfig) (resolved : ResolvedSavedGroupDefaults)
    (projection : SavedHostConnectionProjection) : Prop where
  durable : projection.effectiveHost.id = host.id ∧
    projection.effectiveHost.revision = host.revision ∧
    projection.effectiveHost.createdAt = host.createdAt ∧
    projection.effectiveHost.updatedAt = host.updatedAt
  sshOwner : isActive host = true → (projection.sshCredentialOwner.isSome = true ↔
    booleanField projection.effectiveHost.compatibilityFields "hasSavedCredential" = true)
  sshHost : isActive host = true →
    booleanField host.compatibilityFields "hasSavedCredential" = true →
    projection.sshCredentialOwner = some (.host host.id)
  sshGroup : isActive host = true →
    booleanField host.compatibilityFields "hasSavedCredential" = false →
    ∀ owner, projection.sshCredentialOwner = some owner → ∃ id, owner = .group id ∧
      resolved.sshCredentialOwner = some id ∧ resolved.defaults.password = .storedHint
  proxyOwner : projection.inlineProxyCredentialOwner.isSome = true ↔ ∃ config,
    projection.effectiveHost.proxyConfig E.toExternals = .ok (some config) ∧
      inlineProxyHasSavedManualCredential config = true
  proxyNamed : ∀ owner, projection.inlineProxyCredentialOwner = some owner → ∃ config,
    projection.effectiveHost.proxyConfig E.toExternals = .ok (some config) ∧
      (owner = .host host.id ∧ host.proxyConfig E.toExternals = .ok (some config) ∨
        ∃ record ∈ groupConfigs, owner = .group record.id ∧
          record.defaults.proxy = .inline config)
  explicit : Keeps host.compatibilityFields projection.effectiveHost.compatibilityFields
  username : host.username.isEmpty = false → projection.effectiveHost.username = host.username
  core : projection.effectiveHost.label = host.label ∧
    projection.effectiveHost.hostname = host.hostname ∧
    projection.effectiveHost.port = host.port ∧
    projection.effectiveHost.protocol = host.protocol ∧
    projection.effectiveHost.authMethod = host.authMethod ∧
    projection.effectiveHost.authPolicyVersion = host.authPolicyVersion

/-- A group that clears the proxy, and a host with a proxy of its own that has a saved
credential. -/
def DropsProxyOwner (E : ProjectionExternals) (host : SavedHost)
    (groupConfigs : List SavedGroupConfig) : Prop :=
  isActive host = true ∧ ∃ path config,
    parseGroupPath (host.compatibilityFields.get? "group") = .ok (some path) ∧
    (resolveGroupDefaultsWithProvenance path groupConfigs).defaults.proxy = .clear ∧
    host.proxyConfig E.toExternals = .ok (some config) ∧
    inlineProxyHasSavedManualCredential config = true

/-- The stages of a projection that succeeds. -/
theorem project_ok {projection : SavedHostConnectionProjection}
    (h : projectSavedHostConnection E host groupConfigs = .ok projection) :
    ∃ resolved inline ssh telnet proxy, resolveHostGroup host groupConfigs = .ok resolved ∧
      host.proxyConfig E.toExternals = .ok inline ∧ sshStage host resolved = .ok ssh ∧
      telnetStage host resolved ssh.fields = .ok telnet ∧
      proxyStage E host resolved inline telnet.1 = .ok proxy ∧
      projection.effectiveHost = { host with
        username := ssh.effectiveUsername
        compatibilityFields :=
          applyNonCredentialDefaults resolved.defaults proxy.1 (isActive host) } ∧
      projection.sshCredentialOwner = ssh.credentialOwner ∧
      projection.inlineProxyCredentialOwner = proxy.2 := by
  rw [projectSavedHostConnection_eq] at h
  obtain ⟨resolved, hresolved, h⟩ := bind_ok_iff.mp h
  obtain ⟨inline, hinline, h⟩ := bind_ok_iff.mp h
  obtain ⟨profile, -, h⟩ := bind_ok_iff.mp h
  obtain ⟨ssh, hssh, h⟩ := bind_ok_iff.mp h
  obtain ⟨telnet, htelnet, h⟩ := bind_ok_iff.mp h
  obtain ⟨proxy, hproxy, h⟩ := bind_ok_iff.mp h
  obtain ⟨finished, hfinished, h⟩ := bind_ok_iff.mp h
  cases h
  exact ⟨resolved, inline, ssh, telnet, proxy, hresolved, orElse_ok hinline, hssh, htelnet, hproxy,
    finishStage_ok hfinished, rfl, rfl⟩

theorem telnetStage_frame {resolved : ResolvedSavedGroupDefaults} {fields : Fields}
    {telnet : Fields × Option SavedHostConnectionCredentialOwner}
    (h : telnetStage host resolved fields = .ok telnet) :
    Keeps fields telnet.1 ∧ ∀ key, key ∉ ["telnetIdentityId", "telnetUsername"] →
      telnet.1.get? key = fields.get? key := by
  unfold telnetStage at h
  split at h
  · cases h
    exact ⟨Keeps.refl fields, fun _ _ => rfl⟩
  · have hcases := applyTelnetDefaults_cases host resolved fields (hostTelnetOwner host)
    rw [h] at hcases
    cases hcases with
    | applied fields' owner' hkeeps hframe => exact ⟨hkeeps, hframe⟩

theorem proxyStage_frame {resolved : ResolvedSavedGroupDefaults}
    {inline : Option SavedProxyConfig} {fields : Fields}
    {proxy : Fields × Option SavedHostConnectionCredentialOwner}
    (h : proxyStage E host resolved inline fields = .ok proxy) :
    Keeps fields proxy.1 ∧
      proxy.1.get? "hasSavedCredential" = fields.get? "hasSavedCredential" := by
  unfold proxyStage at h
  split at h
  · have hcases := applyProxyDefaults_cases E resolved fields (hostProxyOwner host inline)
    rw [h] at hcases
    cases hcases with
    | untouched => exact ⟨Keeps.refl fields, rfl⟩
    | cleared => exact ⟨Keeps.refl fields, rfl⟩
    | profile fields' hkeeps _ _ _ hhint => exact ⟨hkeeps, hhint⟩
    | inherited fields' config hkeeps _ _ hhint => exact ⟨hkeeps, hhint⟩
  · cases h
    exact ⟨Keeps.refl fields, rfl⟩

/-- The owner of the proxy that a host with active SSH relations gets. -/
theorem proxyStage_names (hproxies : EncodesProxies E) {chain : List SavedGroupConfig}
    {resolved : ResolvedSavedGroupDefaults} (howned : ProxyOwned chain resolved)
    (hvalid : ∀ record ∈ chain, ∀ config, record.defaults.proxy = .inline config →
      config.validate = .ok ())
    {inline : Option SavedProxyConfig} {fields : Fields} (hactive : isActive host = true)
    (hinline : parseProxyConfig E.toExternals (fields.get? "proxyConfig") = .ok inline)
    (hkept : resolved.defaults.proxy = .clear →
      inline.any inlineProxyHasSavedManualCredential = false)
    (hresolved : ∀ config, resolved.defaults.proxy = .inline config →
      ∃ record ∈ chain, record.defaults.proxy = .inline config)
    {proxy : Fields × Option SavedHostConnectionCredentialOwner}
    (h : proxyStage E host resolved inline fields = .ok proxy) :
    ∃ inline', parseProxyConfig E.toExternals (proxy.1.get? "proxyConfig") = .ok inline' ∧
      (proxy.2.isSome = true ↔ inline'.any inlineProxyHasSavedManualCredential = true) ∧
      ∀ owner, proxy.2 = some owner → owner = .host host.id ∧ inline' = inline ∨
        ∃ record ∈ chain, ∃ config, owner = .group record.id ∧ inline' = some config ∧
          record.defaults.proxy = .inline config := by
  have hown : ((hostProxyOwner host inline).isSome = true ↔
      inline.any inlineProxyHasSavedManualCredential = true) ∧
      ∀ owner, hostProxyOwner host inline = some owner → owner = .host host.id := by
    unfold hostProxyOwner
    rw [hactive, Bool.true_and]
    cases inline.any inlineProxyHasSavedManualCredential <;> simp [eq_comm]
  unfold proxyStage at h
  rw [if_pos hactive] at h
  have hcases := applyProxyDefaults_cases E resolved fields (hostProxyOwner host inline)
  rw [h] at hcases
  cases hcases with
  | untouched =>
      exact ⟨inline, hinline, hown.1, fun owner howner => .inl ⟨hown.2 owner howner, rfl⟩⟩
  | cleared hclear => exact ⟨inline, hinline, by simp [hkept hclear], nofun⟩
  | profile fields' _ _ _ hnone =>
      refine ⟨none, ?_, by simp, nofun⟩
      rw [hnone]
      rfl
  | inherited fields' config _ hproxy hencoded _ _ =>
      obtain ⟨record, hrecord, hrecordProxy⟩ := hresolved config hproxy
      refine ⟨some config, ?_, ?_, fun owner howner => .inr ?_⟩
      · rw [hencoded]
        exact hproxies.parse (hvalid record hrecord config hrecordProxy)
      · cases hsaved : inlineProxyHasSavedManualCredential config with
        | false => simp [hsaved]
        | true =>
            obtain ⟨-, owner, -, -, hid, -, -⟩ := howned.1 config hproxy hsaved
            simp [hsaved, hid]
      · cases hsaved : inlineProxyHasSavedManualCredential config with
        | false => simp [hsaved] at howner
        | true =>
            obtain ⟨above, record, below, rfl, hid, hrecordProxy, -⟩ :=
              howned.1 config hproxy hsaved
            refine ⟨record, by simp, config, ?_, rfl, hrecordProxy⟩
            simp only [hsaved, if_true, hid, Option.map_some, Option.some.injEq] at howner
            exact howner.symm

/-- A proxy that is inherited is the proxy of a record. -/
theorem proxy_foldl {config : SavedProxyConfig} (chain : List SavedGroupConfig) :
    (chain.foldl ResolvedSavedGroupDefaults.mergeRecord .empty).defaults.proxy = .inline config →
      ∃ record ∈ chain, record.defaults.proxy = .inline config := by
  induction chain using List.reverseRecOn with
  | nil => exact fun h => nomatch h
  | append_singleton chain record ih =>
      rw [List.foldl_append, List.foldl_cons, List.foldl_nil, proxy_mergeRecord]
      intro h
      cases hproxy : record.defaults.proxy with
      | inherit =>
          rw [hproxy] at h
          obtain ⟨other, hother, hinline⟩ := ih h
          exact ⟨other, List.mem_append_left _ hother, hinline⟩
      | clear =>
          rw [hproxy] at h
          cases h
      | profile id =>
          rw [hproxy] at h
          cases h
      | inline own =>
          rw [hproxy] at h
          exact ⟨record, List.mem_append_right _ List.mem_cons_self, hproxy.trans h⟩

/-- The inline proxy of the effective host. -/
theorem effective_proxyConfig (resolved : ResolvedSavedGroupDefaults) (username : Text)
    (fields : Fields) :
    SavedHost.proxyConfig E.toExternals { host with
        username
        compatibilityFields :=
          applyNonCredentialDefaults resolved.defaults fields (isActive host) } =
      if isActive host then parseProxyConfig E.toExternals (fields.get? "proxyConfig")
      else .ok none := by
  have hkey : (applyNonCredentialDefaults resolved.defaults fields (isActive host)).get?
      "proxyConfig" = fields.get? "proxyConfig" :=
    applyOverrides_get?_of_notMem (nonCredentialDefaults_keys _ _).2.1
  unfold SavedHost.proxyConfig
  rw [hkey]
  unfold isActive
  cases host.protocol.isTelnet || host.protocol.isSerial <;> rfl

/-- The SSH password of the effective host, and its owner. -/
theorem sshStage_names {resolved : ResolvedSavedGroupDefaults} {ssh : SshProjection}
    (hactive : isActive host = true) (h : sshStage host resolved = .ok ssh) :
    (ssh.credentialOwner.isSome = true ↔ booleanField ssh.fields "hasSavedCredential" = true) ∧
      (booleanField host.compatibilityFields "hasSavedCredential" = true →
        ssh.credentialOwner = some (.host host.id)) ∧
      (booleanField host.compatibilityFields "hasSavedCredential" = false →
        ∀ owner, ssh.credentialOwner = some owner → ∃ id, owner = .group id ∧
          resolved.sshCredentialOwner = some id ∧ resolved.defaults.password = .storedHint) := by
  unfold sshStage at h
  rw [if_pos hactive] at h
  have hcases := applySshDefaults_cases host resolved host.compatibilityFields host.username
    (hostSshOwner host)
  rw [h] at hcases
  have hown : hostSshOwner host =
      if booleanField host.compatibilityFields "hasSavedCredential" then some (.host host.id)
      else none := by
    unfold hostSshOwner
    rw [hactive, Bool.true_and]
  cases hcases with
  | kept ssh _ _ _ _ howner hhint =>
      have hsame : booleanField ssh.fields "hasSavedCredential" =
          booleanField host.compatibilityFields "hasSavedCredential" := by
        unfold booleanField
        rw [hhint]
      rw [howner, hown, hsame]
      cases booleanField host.compatibilityFields "hasSavedCredential" <;> simp
  | inherited ssh _ _ _ id hinherits hid howner hhint =>
      have hblocks := hinherits.2.1
      simp only [hostBlocksGroupPassword, Bool.or_eq_false_iff] at hblocks
      have hset : booleanField ssh.fields "hasSavedCredential" = true := by
        unfold booleanField
        rw [hhint]
      refine ⟨by simp [howner, hset], fun hsaved => ?_, fun _ owner heq => ?_⟩
      · rw [hsaved] at hblocks
        cases hblocks.1
      · rw [howner] at heq
        exact ⟨id, (Option.some.inj heq).symm, hid, hinherits.2.2.2⟩

/-- **A projection that succeeds names the owners**, unless a group drops that of the host's
proxy. -/
theorem project_names_iff (hproxies : EncodesProxies E)
    (hvalid : ∀ config ∈ groupConfigs, ∀ proxy, config.defaults.proxy = .inline proxy →
      proxy.validate = .ok ())
    {projection : SavedHostConnectionProjection}
    (h : projectSavedHostConnection E host groupConfigs = .ok projection) :
    (∃ resolved, resolveHostGroup host groupConfigs = .ok resolved ∧
        NamesOwners E host groupConfigs resolved projection) ↔
      ¬ DropsProxyOwner E host groupConfigs := by
  obtain ⟨resolved, inline, ssh, telnet, proxy, hresolved, hinline, hssh, htelnet, hproxy,
    heffective, hsshOwner, hproxyOwner⟩ := project_ok h
  obtain ⟨hkeeps, hframe, hinactive, husername⟩ := sshStage_frame hssh
  obtain ⟨htelnetKeeps, htelnetFrame⟩ := telnetStage_frame htelnet
  obtain ⟨hproxyKeeps, hproxyHint⟩ := proxyStage_frame hproxy
  obtain ⟨hhintKey, hproxyKey, hplain⟩ :=
    nonCredentialDefaults_keys resolved.defaults (isActive host)
  have heffectiveProxy := @effective_proxyConfig E host resolved
    ssh.effectiveUsername proxy.1
  rw [← heffective] at heffectiveProxy
  -- The proxy that the stages before leave.
  have hfields : isActive host = true →
      parseProxyConfig E.toExternals (telnet.1.get? "proxyConfig") = .ok inline := by
    intro hactive
    rw [htelnetFrame _ (by decide), hframe _ (by decide), ← hinline]
    unfold SavedHost.proxyConfig
    rw [if_neg (by simpa [isActive] using hactive)]
  obtain ⟨chain, hchain, hmem, hpath⟩ := resolveHostGroup_chain hresolved
  constructor
  · rintro ⟨resolved', hresolved', hnames⟩ ⟨hactive, path, config, hgroup, hclear, hown, hsaved⟩
    have heq : resolved = resolveGroupDefaultsWithProvenance path groupConfigs := by
      rcases resolveHostGroup_cases hresolved with ⟨hnone, -⟩ | ⟨path', hpath', rfl⟩
      · rw [hgroup] at hnone
        cases hnone
      · rw [hgroup] at hpath'
        cases hpath'
        rfl
    have hcases := applyProxyDefaults_cases E resolved telnet.1 (hostProxyOwner host inline)
    unfold proxyStage at hproxy
    rw [if_pos hactive] at hproxy
    rw [hproxy] at hcases
    rw [hinline] at hown
    cases hown
    cases hcases with
    | untouched hne => exact hne (heq ▸ hclear)
    | profile _ _ hne => exact hne (heq ▸ hclear)
    | inherited _ _ _ hset =>
        rw [heq, hclear] at hset
        cases hset
    | cleared =>
        have hcurrent : projection.effectiveHost.proxyConfig E.toExternals = .ok (some config) := by
          rw [heffectiveProxy, if_pos hactive]
          exact hfields hactive
        have hsome := hnames.proxyOwner.mpr ⟨config, hcurrent, hsaved⟩
        rw [hproxyOwner] at hsome
        cases hsome
  · intro hdrops
    have hkept : isActive host = true → resolved.defaults.proxy = .clear →
        inline.any inlineProxyHasSavedManualCredential = false := by
      intro hactive hclear
      rcases resolveHostGroup_cases hresolved with ⟨-, rfl⟩ | ⟨path, hgroup, rfl⟩
      · cases hclear
      · by_contra hany
        rw [Bool.not_eq_false, Option.any_eq_true] at hany
        obtain ⟨config, rfl, hsaved⟩ := hany
        exact hdrops ⟨hactive, path, config, hgroup, hclear, hinline, hsaved⟩
    have hnamed : isActive host = true → _ := fun hactive =>
      proxyStage_names hproxies (hchain ▸ proxyOwned_foldl chain)
        (fun record hrecord => hvalid record (hmem record hrecord)) hactive (hfields hactive)
        (hkept hactive) (fun config hconfig => proxy_foldl chain (hchain ▸ hconfig)) hproxy
    have hhint : projection.effectiveHost.compatibilityFields.get? "hasSavedCredential" =
        ssh.fields.get? "hasSavedCredential" := by
      rw [heffective]
      exact (applyOverrides_get?_of_notMem hhintKey).trans
        (hproxyHint.trans (htelnetFrame _ (by decide)))
    have hsaved : booleanField projection.effectiveHost.compatibilityFields "hasSavedCredential" =
        booleanField ssh.fields "hasSavedCredential" := by
      unfold booleanField
      rw [hhint]
    refine ⟨resolved, hresolved, ?_⟩
    constructor
    · rw [heffective]
      exact ⟨rfl, rfl, rfl, rfl⟩
    · intro hactive
      rw [hsaved, hsshOwner]
      exact (sshStage_names hactive hssh).1
    · intro hactive
      rw [hsshOwner]
      exact (sshStage_names hactive hssh).2.1
    · intro hactive
      rw [hsshOwner]
      exact (sshStage_names hactive hssh).2.2
    · rw [heffectiveProxy, hproxyOwner]
      cases hactive : isActive host with
      | false => simp [proxyStage, hactive, hostProxyOwner] at hproxy ⊢; simp [← hproxy]
      | true =>
          obtain ⟨inline', hparse, hsome, -⟩ := hnamed hactive
          rw [if_pos rfl, hparse, hsome, Option.any_eq_true]
          simp
    · intro owner howner
      rw [heffectiveProxy]
      rw [hproxyOwner] at howner
      cases hactive : isActive host with
      | false =>
          simp only [proxyStage, hactive, hostProxyOwner, Bool.false_and, Bool.false_eq_true,
            if_false, Except.ok.injEq] at hproxy
          rw [← hproxy] at howner
          cases howner
      | true =>
          obtain ⟨inline', hparse, hsome, howned⟩ := hnamed hactive
          have hsome' := hsome.mp (by rw [howner]; rfl)
          rw [Option.any_eq_true] at hsome'
          obtain ⟨config, rfl, -⟩ := hsome'
          refine ⟨config, by rw [if_pos rfl, hparse], ?_⟩
          rcases howned owner howner with ⟨rfl, heq⟩ |
            ⟨record, hrecord, config', rfl, heq, hrecordProxy⟩
          · exact .inl ⟨rfl, by rw [hinline, heq]⟩
          · cases heq
            exact .inr ⟨record, hmem record hrecord, rfl, hrecordProxy⟩
    · rw [heffective]
      exact ((hkeeps.trans htelnetKeeps).trans hproxyKeeps).trans (keeps_applyOverrides hplain)
    · rw [heffective]
      exact husername
    · rw [heffective]
      exact ⟨rfl, rfl, rfl, rfl, rfl, rfl⟩

/-- **The claim of a projection**: it does not miss an owner, and where it succeeds it names the
owners. -/
def ProjectsOwners (E : ProjectionExternals) (host : SavedHost)
    (groupConfigs : List SavedGroupConfig) : Prop :=
  projectSavedHostConnection E host groupConfigs ≠ .error .missingCredentialProvenance ∧
    ∀ projection, projectSavedHostConnection E host groupConfigs = .ok projection →
      ∃ resolved, resolveHostGroup host groupConfigs = .ok resolved ∧
        NamesOwners E host groupConfigs resolved projection

end Projection

/-- **Owners are projected** exactly for the hosts that get no password without an owner and, where
the projection succeeds, no group that clears the proxy beside their own. -/
theorem projects_iff (E : ProjectionExternals) (hproxies : EncodesProxies E) (host : SavedHost)
    (groupConfigs : List SavedGroupConfig)
    (hvalid : ∀ config ∈ groupConfigs, ∀ proxy, config.defaults.proxy = .inline proxy →
      proxy.validate = .ok ()) :
    ProjectsOwners E host groupConfigs ↔
      ¬ MissingProvenance E host groupConfigs ∧
        ∀ projection, projectSavedHostConnection E host groupConfigs = .ok projection →
          ¬ DropsProxyOwner E host groupConfigs :=
  and_congr (not_congr project_missing_iff)
    (forall₂_congr fun _ h => project_names_iff hproxies hvalid h)

/-! ### Hosts in the lab -/

/-- A key of checked compatibility fields is not reserved. -/
theorem not_reserved_of_validate {reserved : Text → Bool} {depth : ℕ} {fields : Fields}
    (h : validateCompatibilityEntries depth reserved fields = .ok ()) :
    ∀ field ∈ fields, reserved field.1 = false := by
  induction fields with
  | nil => exact fun _ h => nomatch h
  | cons field fields ih =>
      obtain ⟨key, value⟩ := field
      unfold validateCompatibilityEntries at h
      obtain ⟨hentry, h⟩ := check_ok_iff.mp h
      have hcheck : checkCompatibilityEntry depth reserved key value = .ok () := by
        unfold validateCompatibilityEntry at hentry
        cases value with
        | array values => exact (check_ok_iff.mp hentry).1
        | object fields => exact (check_ok_iff.mp hentry).1
        | null => exact hentry
        | bool value => exact hentry
        | integer value => exact hentry
        | float value => exact hentry
        | string value => exact hentry
      intro other hother
      rcases List.mem_cons.mp hother with rfl | hother
      · unfold checkCompatibilityEntry at hcheck
        by_contra hreserved
        rw [Bool.not_eq_false] at hreserved
        split at hcheck
        · cases hcheck
        · simp [hreserved] at hcheck
      · exact ih h other hother

/-- The named fields of a network proxy, in key order. -/
def networkFields (type : String) (host : Text) (port : ℕ)
    (identityId : Option SavedPasswordIdentityId) (username : Text) (hasSavedCredential : Bool) :
    Fields :=
  [("hasSavedCredential".toList, .bool hasSavedCredential), ("host".toList, .string host)] ++
    identityId.elim [] (fun id => [("identityId".toList, .string id)]) ++
    [("port".toList, .integer port), ("type".toList, .string type.toList),
      ("username".toList, .string username)]

def encodeProxy : SavedProxyConfig → Value
  | .http host port identityId username hasSavedCredential fields =>
    .object (networkFields "http" host port identityId username hasSavedCredential ++ fields)
  | .socks5 host port identityId username hasSavedCredential fields =>
    .object (networkFields "socks5" host port identityId username hasSavedCredential ++ fields)
  | .command line fields =>
    .object ([("command".toList, .string line), ("type".toList, .string "command".toList)] ++
      fields)

def decodeNetwork (fields : Fields) : Option (Text × ℕ × Option Text × Text × Bool) :=
  match fields.get? "host", fields.get? "port", fields.get? "username",
    fields.get? "hasSavedCredential" with
  | some (.string host), some (.integer port), some (.string username), some (.bool saved) =>
    let identityId := match fields.get? "identityId" with
      | some (.string id) => some id
      | _ => none
    some (host, port.toNat, identityId, username, saved)
  | _, _, _, _ => none

def decodeProxy : Value → Option SavedProxyConfig
  | .object fields =>
    let rest := fields.filter fun field => !isReservedProxyConfigField field.1
    match Fields.get? fields "type", Fields.get? fields "command" with
    | some (.string ['h', 't', 't', 'p']), _ =>
      (decodeNetwork fields).map fun (host, port, identityId, username, saved) =>
        .http host port identityId username saved rest
    | some (.string ['s', 'o', 'c', 'k', 's', '5']), _ =>
      (decodeNetwork fields).map fun (host, port, identityId, username, saved) =>
        .socks5 host port identityId username saved rest
    | some (.string ['c', 'o', 'm', 'm', 'a', 'n', 'd']), some (.string line) =>
      some (.command line rest)
    | _, _ => none
  | _ => none

/-- Text in ASCII, and proxies in JSON. -/
def labExternals : ProjectionExternals :=
  { asciiExternals with proxyConfigFromValue := decodeProxy, proxyConfigToValue := encodeProxy }

theorem filter_fields (named : Fields) {fields : Fields} (hnamed : ∀ field ∈ named,
    isReservedProxyConfigField field.1 = true)
    (hfields : ∀ field ∈ fields, isReservedProxyConfigField field.1 = false) :
    (named ++ fields).filter (fun field => !isReservedProxyConfigField field.1) = fields := by
  rw [List.filter_append, List.filter_eq_nil_iff.mpr (by simpa using hnamed), List.nil_append,
    List.filter_eq_self.mpr (by simpa using hfields)]

theorem decodeNetwork_networkFields (type : String) (host : Text) (port : ℕ)
    (identityId : Option SavedPasswordIdentityId) (username : Text) (hasSavedCredential : Bool)
    {fields : Fields} (hfields : fields.get? "identityId" = none) :
    decodeNetwork
        (networkFields type host port identityId username hasSavedCredential ++ fields) =
      some (host, port, identityId, username, hasSavedCredential) := by
  have hfields : fields.lookup ['i', 'd', 'e', 'n', 't', 'i', 't', 'y', 'I', 'd'] = none := hfields
  cases identityId <;>
    simp [decodeNetwork, networkFields, Fields.get?, List.lookup_cons, hfields]

theorem networkFields_reserved (type : String) (host : Text) (port : ℕ)
    (identityId : Option SavedPasswordIdentityId) (username : Text) (hasSavedCredential : Bool) :
    ∀ field ∈ networkFields type host port identityId username hasSavedCredential,
      isReservedProxyConfigField field.1 = true := by
  have hkeys : ∀ key ∈ ["hasSavedCredential", "host", "identityId", "port", "type", "username"],
      isReservedProxyConfigField key.toList = true := by
    decide
  intro field hfield
  cases identityId <;>
    simp only [networkFields, Option.elim, List.append_nil, List.cons_append, List.nil_append,
      List.mem_cons, List.not_mem_nil, or_false] at hfield
  · rcases hfield with rfl | rfl | rfl | rfl | rfl <;> exact hkeys _ (by decide)
  · rcases hfield with rfl | rfl | rfl | rfl | rfl | rfl <;> exact hkeys _ (by decide)

theorem validateNetwork_fields {host : Text} {port : ℕ}
    {identityId : Option SavedPasswordIdentityId} {username : Text} {hasSavedCredential : Bool}
    {fields : Fields}
    (h : SavedProxyConfig.validateNetwork host port identityId username hasSavedCredential fields =
      .ok ()) : ∀ field ∈ fields, isReservedProxyConfigField field.1 = false := by
  unfold SavedProxyConfig.validateNetwork at h
  obtain ⟨-, h⟩ := check_ok_iff.mp h
  obtain ⟨-, h⟩ := refuse_ok_iff.mp h
  split at h
  · obtain ⟨-, h⟩ := check_ok_iff.mp h
    obtain ⟨-, h⟩ := refuse_ok_iff.mp h
    exact not_reserved_of_validate h
  · obtain ⟨-, h⟩ := check_ok_iff.mp h
    exact not_reserved_of_validate h

/-- A proxy that passes its check is read back. -/
theorem labExternals_encodes : EncodesProxies labExternals := by
  refine ⟨fun config => by cases config <;> exact ⟨_, rfl⟩, fun config hvalid => ?_⟩
  have hidentity : ∀ fields : Fields,
      (∀ field ∈ fields, isReservedProxyConfigField field.1 = false) →
      fields.get? "identityId" = none := by
    intro fields hfields
    unfold Fields.get?
    rw [List.lookup_eq_none_iff]
    intro field hfield
    by_contra heq
    have hkey : "identityId".toList = field.1 := by simpa using heq
    have hnot := hfields field hfield
    rw [← hkey] at hnot
    revert hnot
    decide
  cases config with
  | http host port identityId username hasSavedCredential fields =>
      have hfields := validateNetwork_fields hvalid
      have hrest := filter_fields _ (networkFields_reserved "http" host port identityId username
        hasSavedCredential) hfields
      have hnetwork := decodeNetwork_networkFields "http" host port identityId username
        hasSavedCredential (hidentity fields hfields)
      simp only [labExternals, encodeProxy, decodeProxy, hrest, hnetwork]
      cases identityId <;> simp [networkFields, Fields.get?, List.lookup_cons]
  | socks5 host port identityId username hasSavedCredential fields =>
      have hfields := validateNetwork_fields hvalid
      have hrest := filter_fields _ (networkFields_reserved "socks5" host port identityId username
        hasSavedCredential) hfields
      have hnetwork := decodeNetwork_networkFields "socks5" host port identityId username
        hasSavedCredential (hidentity fields hfields)
      simp only [labExternals, encodeProxy, decodeProxy, hrest, hnetwork]
      cases identityId <;> simp [networkFields, Fields.get?, List.lookup_cons]
  | command line fields =>
      have hfields : ∀ field ∈ fields, isReservedProxyConfigField field.1 = false := by
        unfold SavedProxyConfig.validate at hvalid
        obtain ⟨-, hvalid⟩ := check_ok_iff.mp hvalid
        exact not_reserved_of_validate hvalid
      have hrest := filter_fields [("command".toList, .string line),
        ("type".toList, .string "command".toList)] (by
          intro field hfield
          simp only [List.mem_cons, List.not_mem_nil, or_false] at hfield
          have hkeys : isReservedProxyConfigField "command".toList = true ∧
              isReservedProxyConfigField "type".toList = true := by
            decide
          rcases hfield with rfl | rfl
          · exact hkeys.1
          · exact hkeys.2) hfields
      simp only [labExternals, encodeProxy, decodeProxy, hrest]
      simp [Fields.get?, List.lookup_cons]

/-- A host in the group `Team`. -/
def teamHost (fields : Fields) : SavedHost where
  recordVersion := recordVersion
  id := "host-1".toList
  revision := 1
  label := "web".toList
  hostname := "web.example.test".toList
  port := 22
  username := "alice".toList
  protocol := .ssh
  authMethod := .password
  authPolicyVersion := 1
  createdAt := 1
  updatedAt := 1
  compatibilityFields := fields

def teamProxy (host : String) : SavedProxyConfig :=
  .http host.toList 8080 none "alice".toList true []

/-- A group record at `Team` that saves a password and has the given proxy. -/
def teamGroup (proxy : SavedGroupProxyOverride) : SavedGroupConfig where
  recordVersion := groupConfigRecordVersion
  id := "team-group".toList
  revision := 1
  path := "Team".toList
  defaults := { SavedGroupDefaults.empty with password := .storedHint, proxy := proxy }
  createdAt := 1
  updatedAt := 1

def plainHost : SavedHost := teamHost [("group".toList, .string "Team".toList)]

/-- A host with a proxy of its own. -/
def proxyHost : SavedHost :=
  teamHost [("group".toList, .string "Team".toList),
    ("proxyConfig".toList, encodeProxy (teamProxy "host-proxy.example.test"))]

theorem projects_iff_lab : ProjectsOwners labExternals plainHost
    [teamGroup (.inline (teamProxy "proxy.example.test"))] := by
  refine (projects_iff labExternals labExternals_encodes plainHost _ ?_).mpr ⟨?_, ?_⟩
  · intro config hconfig proxy hproxy
    rw [List.mem_singleton.mp hconfig] at hproxy
    cases hproxy
    decide
  · rw [← project_missing_iff]
    decide +kernel
  · rintro - - ⟨-, path, config, hpath, hclear, -⟩
    have hteam : parseGroupPath (plainHost.compatibilityFields.get? "group") =
        .ok (some "Team".toList) := by
      decide
    rw [hteam] at hpath
    cases hpath
    revert hclear
    decide

/-- The Telnet password of a group without an owner refuses an SSH host, and a group that clears the
proxy drops the owner of the host's own proxy. -/
theorem owners_lost :
    ((plainHost.validate asciiExternals = .ok () ∧ clearingGroup.isValid = true) ∧
      ¬ ProjectsOwners labExternals plainHost [clearingGroup]) ∧
    (proxyHost.validate asciiExternals = .ok () ∧ (teamGroup .clear).isValid = true) ∧
      ¬ ProjectsOwners labExternals proxyHost [teamGroup .clear] := by
  refine ⟨⟨by decide, fun h => h.1 (by decide)⟩, by decide, fun h => ?_⟩
  have hrun : (projectSavedHostConnection labExternals proxyHost [teamGroup .clear]).map
      (fun projection => (projection.inlineProxyCredentialOwner,
        projection.effectiveHost.proxyConfig labExternals.toExternals)) =
      .ok (none, .ok (some (teamProxy "host-proxy.example.test"))) := by
    decide +kernel
  cases hproject : projectSavedHostConnection labExternals proxyHost [teamGroup .clear] with
  | error error =>
      rw [hproject] at hrun
      cases hrun
  | ok projection =>
      rw [hproject] at hrun
      obtain ⟨hnone, hproxy⟩ := Prod.mk.inj (Except.ok.inj hrun)
      obtain ⟨resolved, -, hnames⟩ := h.2 projection hproject
      have hsome := hnames.proxyOwner.mpr ⟨_, hproxy, rfl⟩
      rw [hnone] at hsome
      cases hsome

end Netcatty.Vault.GroupConfig
