import Netcatty.Vault.GroupDefaults

/-! # Owners of inherited credentials

Where a group path inherits a password, the owner that `resolveGroupDefaultsWithProvenance` names is
the record that defined the password, and an identity that is selected comes without credentials of
records above it.  A record that clears the identity beside a password of its own is the exception:
its password is inherited without an owner (`keepsProvenance_iff`).

SSH and Telnet credentials are merged alike, so both are `CredentialFields`, a selected identity and
a password with its owner. -/

namespace Netcatty.Vault.GroupConfig

/-! ### One credential -/

/-- The fields of a credential, and how a record merges into them. -/
structure CredentialFields (ι : Type) where
  identity : SavedGroupDefaults → SavedGroupOverride ι
  password : SavedGroupDefaults → SavedGroupCredentialOverride
  manual : SavedGroupDefaults → Bool
  owner : ResolvedSavedGroupDefaults → Option Text
  empty : identity .empty = .inherit ∧ password .empty = .inherit ∧ owner .empty = none
  manual_of_password : ∀ child, (password child).isDefined = true → manual child = true
  identity_mergeFrom : ∀ defaults child, identity (defaults.mergeFrom child) =
    if isDefined (identity child) then identity child
    else if manual child then .inherit else identity defaults
  password_mergeFrom : ∀ defaults child, password (defaults.mergeFrom child) =
    if (password child).isDefined then password child
    else if isDefined (identity child) || manual child && isSet (identity defaults) then .inherit
    else password defaults
  owner_mergeRecord : ∀ resolved config, owner (resolved.mergeRecord config) =
    mergeOwner (owner resolved) (identity resolved.defaults) config.id (identity config.defaults)
      (manual config.defaults) (password config.defaults)

theorem mergeFields_replaceSsh (defaults child : SavedGroupDefaults) :
    ((defaults.replaceSsh child).replaceTelnet child).identityId =
        (if isDefined child.identityId then defaults.identityId
          else if child.hasManualSsh then .inherit else defaults.identityId) ∧
      ((defaults.replaceSsh child).replaceTelnet child).password =
        if isDefined child.identityId || child.hasManualSsh && isSet defaults.identityId then
          .inherit
        else defaults.password := by
  have htelnet : ∀ d : SavedGroupDefaults, (d.replaceTelnet child).identityId = d.identityId ∧
      (d.replaceTelnet child).password = d.password := fun d => by
    unfold SavedGroupDefaults.replaceTelnet
    dsimp only
    repeat' split
    all_goals exact ⟨rfl, rfl⟩
  rw [(htelnet _).1, (htelnet _).2]
  unfold SavedGroupDefaults.replaceSsh
  cases isDefined child.identityId <;> cases child.hasManualSsh <;>
    cases isSet defaults.identityId <;> simp [SavedGroupDefaults.clearManualSshBundle]

theorem identityId_mergeFrom (defaults child : SavedGroupDefaults) :
    (defaults.mergeFrom child).identityId =
      if isDefined child.identityId then child.identityId
      else if child.hasManualSsh then .inherit else defaults.identityId := by
  simp only [SavedGroupDefaults.mergeFrom, SavedGroupDefaults.mergeFields, mergeFrom,
    (mergeFields_replaceSsh defaults child).1]
  cases isDefined child.identityId <;> simp

/-- The SSH credential. -/
def sshFields : CredentialFields SavedGroupIdentityReference where
  identity := (·.identityId)
  password := (·.password)
  manual := (·.hasManualSsh)
  owner := (·.sshCredentialOwner)
  empty := ⟨rfl, rfl, rfl⟩
  manual_of_password child h := by simp [SavedGroupDefaults.hasManualSsh, h]
  identity_mergeFrom := identityId_mergeFrom
  password_mergeFrom defaults child := by
    simp only [SavedGroupDefaults.mergeFrom, SavedGroupDefaults.mergeFields,
      SavedGroupCredentialOverride.mergeFrom, (mergeFields_replaceSsh defaults child).2]
  owner_mergeRecord resolved config := rfl

theorem mergeFields_replaceTelnet (defaults child : SavedGroupDefaults) :
    ((defaults.replaceSsh child).replaceTelnet child).telnetIdentityId =
        (if isDefined child.telnetIdentityId then defaults.telnetIdentityId
          else if child.hasManualTelnet then .inherit else defaults.telnetIdentityId) ∧
      ((defaults.replaceSsh child).replaceTelnet child).telnetPassword =
        if isDefined child.telnetIdentityId ||
            child.hasManualTelnet && isSet defaults.telnetIdentityId then .inherit
        else defaults.telnetPassword := by
  have hssh : (defaults.replaceSsh child).telnetIdentityId = defaults.telnetIdentityId ∧
      (defaults.replaceSsh child).telnetPassword = defaults.telnetPassword := by
    unfold SavedGroupDefaults.replaceSsh
    dsimp only
    repeat' split
    all_goals exact ⟨rfl, rfl⟩
  rw [← hssh.1, ← hssh.2]
  generalize defaults.replaceSsh child = defaults
  unfold SavedGroupDefaults.replaceTelnet
  cases isDefined child.telnetIdentityId <;> cases child.hasManualTelnet <;>
    cases isSet defaults.telnetIdentityId <;> simp [SavedGroupDefaults.clearManualTelnetBundle]

/-- The Telnet credential. -/
def telnetFields : CredentialFields SavedPasswordIdentityId where
  identity := (·.telnetIdentityId)
  password := (·.telnetPassword)
  manual := (·.hasManualTelnet)
  owner := (·.telnetCredentialOwner)
  empty := ⟨rfl, rfl, rfl⟩
  manual_of_password child h := by simp [SavedGroupDefaults.hasManualTelnet, h]
  identity_mergeFrom defaults child := by
    simp only [SavedGroupDefaults.mergeFrom, SavedGroupDefaults.mergeFields, mergeFrom,
      (mergeFields_replaceTelnet defaults child).1]
    cases isDefined child.telnetIdentityId <;> simp
  password_mergeFrom defaults child := by
    simp only [SavedGroupDefaults.mergeFrom, SavedGroupDefaults.mergeFields,
      SavedGroupCredentialOverride.mergeFrom, (mergeFields_replaceTelnet defaults child).2]
  owner_mergeRecord resolved config := rfl

namespace CredentialFields

variable {ι : Type} (F : CredentialFields ι)

/-- Records that neither define the password nor replace the identity. -/
def Quiet (records : List SavedGroupConfig) : Prop :=
  ∀ deeper ∈ records, F.password deeper.defaults = .inherit ∧ F.identity deeper.defaults = .inherit

/-- **An inherited password has its owner**: the record that defined it. -/
def Owned (chain : List SavedGroupConfig) (resolved : ResolvedSavedGroupDefaults) : Prop :=
  F.password resolved.defaults = .storedHint → isSet (F.identity resolved.defaults) = false →
    ∃ above record below, chain = above ++ record :: below ∧ F.owner resolved = some record.id ∧
      F.password record.defaults = .storedHint ∧ F.Quiet below

/-- The last record that says anything of the credential clears the identity beside a password of
its own. -/
def ClearsBeside (chain : List SavedGroupConfig) : Prop :=
  ∃ above record below, chain = above ++ record :: below ∧ F.identity record.defaults = .clear ∧
    F.password record.defaults = .storedHint ∧ F.Quiet below

/-- Where a password that is inherited comes from, and whether it has an owner. -/
def Traced (chain : List SavedGroupConfig) (resolved : ResolvedSavedGroupDefaults) : Prop :=
  F.password resolved.defaults = .storedHint → isSet (F.identity resolved.defaults) = false →
    ∃ above record below, chain = above ++ record :: below ∧
      F.password record.defaults = .storedHint ∧ F.Quiet below ∧
      (F.identity record.defaults = .clear ∨ F.owner resolved = some record.id)

variable {F}

theorem quiet_nil : F.Quiet [] := fun _ h => nomatch h

theorem Quiet.append {records : List SavedGroupConfig} {config : SavedGroupConfig}
    (h : F.Quiet records) (hpassword : F.password config.defaults = .inherit)
    (hidentity : F.identity config.defaults = .inherit) : F.Quiet (records ++ [config]) := by
  intro deeper hdeeper
  rcases List.mem_append.mp hdeeper with hdeeper | hdeeper
  · exact h deeper hdeeper
  · rw [List.mem_singleton.mp hdeeper]
    exact ⟨hpassword, hidentity⟩

/-- A record that is quiet leaves the password and its owner, or drops both with the identity. -/
theorem mergeRecord_quiet {resolved : ResolvedSavedGroupDefaults} {config : SavedGroupConfig}
    (hpassword : F.password config.defaults = .inherit)
    (hidentity : F.identity config.defaults = .inherit) :
    (F.password (resolved.mergeRecord config).defaults = F.password resolved.defaults ∧
      F.owner (resolved.mergeRecord config) = F.owner resolved ∧
      isSet (F.identity (resolved.mergeRecord config).defaults) =
        isSet (F.identity resolved.defaults)) ∨
    F.manual config.defaults = true ∧ isSet (F.identity resolved.defaults) = true ∧
      F.password (resolved.mergeRecord config).defaults = .inherit ∧
      F.owner (resolved.mergeRecord config) = none := by
  have hmerged : (resolved.mergeRecord config).defaults =
      resolved.defaults.mergeFrom config.defaults := rfl
  rw [hmerged, F.owner_mergeRecord, F.password_mergeFrom, F.identity_mergeFrom, hpassword,
    hidentity]
  cases hmanual : F.manual config.defaults <;> cases hset : isSet (F.identity resolved.defaults) <;>
    simp [mergeOwner, hset]

/-- **One record.** -/
theorem Traced.step {chain : List SavedGroupConfig} {resolved : ResolvedSavedGroupDefaults}
    (h : F.Traced chain resolved) (config : SavedGroupConfig) :
    F.Traced (chain ++ [config]) (resolved.mergeRecord config) := by
  intro hpassword hidle
  have hmerged : (resolved.mergeRecord config).defaults =
      resolved.defaults.mergeFrom config.defaults := rfl
  by_cases hdefined : (F.password config.defaults).isDefined = true
  · -- The record defines the password itself.
    rw [hmerged, F.password_mergeFrom, if_pos hdefined] at hpassword
    refine ⟨chain, config, [], rfl, hpassword, quiet_nil, ?_⟩
    rw [hmerged, F.identity_mergeFrom, F.manual_of_password _ hdefined, if_pos rfl] at hidle
    rw [F.owner_mergeRecord, hpassword]
    cases hidentity : F.identity config.defaults with
    | inherit => exact .inr rfl
    | clear => exact .inl rfl
    | set reference =>
        rw [hidentity] at hidle
        cases hidle
  · have hinherit : F.password config.defaults = .inherit := by
      cases hchild : F.password config.defaults <;> simp [hchild] at hdefined ⊢
    by_cases hselects : isDefined (F.identity config.defaults) = true
    · -- An identity drops the password.
      rw [hmerged, F.password_mergeFrom, if_neg hdefined, hselects] at hpassword
      cases hpassword
    · have hnone : F.identity config.defaults = .inherit := by
        cases hchild : F.identity config.defaults <;> simp [hchild] at hselects ⊢
      rcases mergeRecord_quiet hinherit hnone with
        ⟨hsame, howner, hidentity⟩ | ⟨-, -, hdropped, -⟩
      · rw [hsame] at hpassword
        rw [hidentity] at hidle
        obtain ⟨above, record, below, rfl, hrecord, hquiet, hcase⟩ := h hpassword hidle
        exact ⟨above, record, below ++ [config], by simp, hrecord, hquiet.append hinherit hnone,
          hcase.imp_right howner.trans⟩
      · rw [hdropped] at hpassword
        cases hpassword

/-- **All records.** -/
theorem traced_foldl (chain : List SavedGroupConfig) :
    F.Traced chain (chain.foldl ResolvedSavedGroupDefaults.mergeRecord .empty) := by
  induction chain using List.reverseRecOn with
  | nil =>
      intro hpassword
      rw [List.foldl_nil, show ResolvedSavedGroupDefaults.empty.defaults = .empty from rfl,
        F.empty.2.1] at hpassword
      cases hpassword
  | append_singleton chain config ih =>
      rw [List.foldl_append, List.foldl_cons, List.foldl_nil]
      exact ih.step config

/-- Quiet records keep a password that has no owner, while no identity is selected. -/
theorem foldl_quiet {resolved : ResolvedSavedGroupDefaults} {below : List SavedGroupConfig}
    (hquiet : F.Quiet below) (hpassword : F.password resolved.defaults = .storedHint)
    (howner : F.owner resolved = none) (hidle : isSet (F.identity resolved.defaults) = false) :
    F.password (below.foldl ResolvedSavedGroupDefaults.mergeRecord resolved).defaults =
        .storedHint ∧
      F.owner (below.foldl ResolvedSavedGroupDefaults.mergeRecord resolved) = none ∧
      isSet (F.identity
        (below.foldl ResolvedSavedGroupDefaults.mergeRecord resolved).defaults) = false := by
  induction below generalizing resolved with
  | nil => exact ⟨hpassword, howner, hidle⟩
  | cons config below ih =>
      obtain ⟨hinherit, hnone⟩ := hquiet config List.mem_cons_self
      rcases mergeRecord_quiet hinherit hnone with
        ⟨hsame, howner', hidentity⟩ | ⟨-, hset, -, -⟩
      · exact ih (fun deeper hdeeper => hquiet deeper (List.mem_cons_of_mem _ hdeeper))
          (hsame.trans hpassword) (howner'.trans howner) (hidentity.trans hidle)
      · rw [hidle] at hset
        cases hset

/-- **A password has no owner** exactly where it stands beside a cleared identity. -/
theorem unowned_iff (chain : List SavedGroupConfig) :
    (F.password (chain.foldl ResolvedSavedGroupDefaults.mergeRecord .empty).defaults =
          .storedHint ∧
        F.owner (chain.foldl ResolvedSavedGroupDefaults.mergeRecord .empty) = none ∧
        isSet (F.identity
          (chain.foldl ResolvedSavedGroupDefaults.mergeRecord .empty).defaults) = false) ↔
      F.ClearsBeside chain := by
  constructor
  · rintro ⟨hpassword, hnone, hidle⟩
    obtain ⟨above, record, below, hchain, hstored, hquiet, hclear | howner⟩ :=
      traced_foldl chain hpassword hidle
    · exact ⟨above, record, below, hchain, hclear, hstored, hquiet⟩
    · rw [hnone] at howner
      cases howner
  · rintro ⟨above, record, below, rfl, hclear, hstored, hquiet⟩
    rw [List.foldl_append, List.foldl_cons]
    generalize above.foldl ResolvedSavedGroupDefaults.mergeRecord .empty = resolved
    have hmerged : (resolved.mergeRecord record).defaults =
        resolved.defaults.mergeFrom record.defaults := rfl
    have hpassword : F.password (resolved.mergeRecord record).defaults = .storedHint := by
      rw [hmerged, F.password_mergeFrom, hstored]
      rfl
    have howner : F.owner (resolved.mergeRecord record) = none := by
      rw [F.owner_mergeRecord, hclear]
      rfl
    have hidle : isSet (F.identity (resolved.mergeRecord record).defaults) = false := by
      rw [hmerged, F.identity_mergeFrom, hclear]
      rfl
    exact foldl_quiet hquiet hpassword howner hidle

theorem owned_iff (chain : List SavedGroupConfig) :
    F.Owned chain (chain.foldl ResolvedSavedGroupDefaults.mergeRecord .empty) ↔
      ¬ F.ClearsBeside chain := by
  constructor
  · intro howned hclears
    obtain ⟨hpassword, hnone, hidle⟩ := (unowned_iff chain).mpr hclears
    obtain ⟨-, record, -, -, howner, -, -⟩ := howned hpassword hidle
    rw [hnone] at howner
    cases howner
  · intro hclears hpassword hidle
    obtain ⟨above, record, below, hchain, hstored, hquiet, hclear | howner⟩ :=
      traced_foldl chain hpassword hidle
    · exact absurd ⟨above, record, below, hchain, hclear, hstored, hquiet⟩ hclears
    · exact ⟨above, record, below, hchain, howner, hstored, hquiet⟩

/-- An owner is the owner of a password that is inherited, with no identity selected. -/
theorem owner_foldl (chain : List SavedGroupConfig) :
    (F.owner (chain.foldl ResolvedSavedGroupDefaults.mergeRecord .empty)).isSome = true →
      F.password (chain.foldl ResolvedSavedGroupDefaults.mergeRecord .empty).defaults =
        .storedHint := by
  induction chain using List.reverseRecOn with
  | nil => simp [F.empty.2.2]
  | append_singleton chain config ih =>
      rw [List.foldl_append, List.foldl_cons, List.foldl_nil]
      generalize chain.foldl ResolvedSavedGroupDefaults.mergeRecord .empty = resolved at ih ⊢
      have hmerged : (resolved.mergeRecord config).defaults =
          resolved.defaults.mergeFrom config.defaults := rfl
      rw [hmerged, F.owner_mergeRecord, F.password_mergeFrom]
      intro howner
      unfold mergeOwner at howner
      cases hselects : isDefined (F.identity config.defaults) with
      | true => simp [hselects] at howner
      | false =>
          cases hpassword : F.password config.defaults with
          | clear => simp [hselects, hpassword] at howner
          | storedHint => rfl
          | inherit =>
              simp only [hselects, hpassword, Bool.false_or, Bool.false_eq_true, if_false] at howner
              split at howner
              · cases howner
              · rename_i hkept
                simp only [SavedGroupCredentialOverride.isDefined, Bool.false_or]
                rw [if_neg (by decide), if_neg hkept]
                exact ih howner

end CredentialFields

/-! ### Proxies -/

theorem proxy_mergeRecord (resolved : ResolvedSavedGroupDefaults) (config : SavedGroupConfig) :
    (resolved.mergeRecord config).defaults.proxy =
      proxyMergeFrom resolved.defaults.proxy config.defaults.proxy := by
  have hproxy : ∀ d child : SavedGroupDefaults,
      ((d.replaceSsh child).replaceTelnet child).proxy = d.proxy := fun d child => by
    unfold SavedGroupDefaults.replaceTelnet SavedGroupDefaults.replaceSsh
    dsimp only
    repeat' split
    all_goals rfl
  simp only [ResolvedSavedGroupDefaults.mergeRecord, SavedGroupDefaults.mergeFrom,
    SavedGroupDefaults.mergeFields, hproxy]

/-- **An inherited proxy with a saved credential has its owner**, and no other proxy has one. -/
def ProxyOwned (chain : List SavedGroupConfig) (resolved : ResolvedSavedGroupDefaults) : Prop :=
  (∀ config, resolved.defaults.proxy = .inline config →
    inlineProxyHasSavedManualCredential config = true →
    ∃ above record below, chain = above ++ record :: below ∧
      resolved.inlineProxyCredentialOwner = some record.id ∧
      record.defaults.proxy = .inline config ∧
      ∀ deeper ∈ below, deeper.defaults.proxy = .inherit) ∧
  (resolved.inlineProxyCredentialOwner.isSome = true → ∃ config,
    resolved.defaults.proxy = .inline config ∧ inlineProxyHasSavedManualCredential config = true)

theorem ProxyOwned.step {chain : List SavedGroupConfig} {resolved : ResolvedSavedGroupDefaults}
    (h : ProxyOwned chain resolved) (record : SavedGroupConfig) :
    ProxyOwned (chain ++ [record]) (resolved.mergeRecord record) := by
  obtain ⟨howned, hinline⟩ := h
  unfold ProxyOwned
  rw [proxy_mergeRecord]
  cases hproxy : record.defaults.proxy with
  | inherit =>
      have howner : (resolved.mergeRecord record).inlineProxyCredentialOwner =
          resolved.inlineProxyCredentialOwner := by
        simp only [ResolvedSavedGroupDefaults.mergeRecord, hproxy, mergeProxyOwner]
      rw [howner]
      refine ⟨fun config heq hsaved => ?_, hinline⟩
      obtain ⟨above, owner, below, rfl, hid, hown, hquiet⟩ := howned config heq hsaved
      refine ⟨above, owner, below ++ [record], by simp, hid, hown, fun deeper hdeeper => ?_⟩
      rcases List.mem_append.mp hdeeper with hdeeper | hdeeper
      · exact hquiet deeper hdeeper
      · rwa [List.mem_singleton.mp hdeeper]
  | clear =>
      refine ⟨nofun, fun hsome => ?_⟩
      simp only [ResolvedSavedGroupDefaults.mergeRecord, hproxy, mergeProxyOwner] at hsome
      cases hsome
  | profile id =>
      refine ⟨nofun, fun hsome => ?_⟩
      simp only [ResolvedSavedGroupDefaults.mergeRecord, hproxy, mergeProxyOwner] at hsome
      cases hsome
  | inline proxy =>
      have howner : (resolved.mergeRecord record).inlineProxyCredentialOwner =
          if inlineProxyHasSavedManualCredential proxy then some record.id else none := by
        simp only [ResolvedSavedGroupDefaults.mergeRecord, hproxy, mergeProxyOwner]
      rw [howner]
      refine ⟨fun config heq hsaved => ?_, fun hsome => ?_⟩
      · cases heq
        exact ⟨chain, record, [], rfl, by rw [if_pos hsaved], hproxy, fun _ h => nomatch h⟩
      · by_cases hsaved : inlineProxyHasSavedManualCredential proxy = true
        · exact ⟨proxy, rfl, hsaved⟩
        · rw [if_neg hsaved] at hsome
          cases hsome

theorem proxyOwned_foldl (chain : List SavedGroupConfig) :
    ProxyOwned chain (chain.foldl ResolvedSavedGroupDefaults.mergeRecord .empty) := by
  induction chain using List.reverseRecOn with
  | nil => exact ⟨nofun, nofun⟩
  | append_singleton chain record ih =>
      rw [List.foldl_append, List.foldl_cons, List.foldl_nil]
      exact ih.step record

/-! ### The selected identity -/

/-- A field that is defined has the value of one of the records. -/
def DefinedIn {α : Type} (defined : α → Bool) (field : SavedGroupDefaults → α)
    (defaults : SavedGroupDefaults) (records : List SavedGroupConfig) : Prop :=
  defined (field defaults) = true → ∃ record ∈ records, field record.defaults = field defaults

/-- **No credentials of two selections**: a selected identity comes with the manual SSH fields of
its own record, or of records below it. -/
def Selected (chain : List SavedGroupConfig) (defaults : SavedGroupDefaults) : Prop :=
  ∀ reference, defaults.identityId = .set reference →
    ∃ above selected below, chain = above ++ selected :: below ∧
      selected.defaults.identityId = .set reference ∧
      DefinedIn isDefined (·.username) defaults (selected :: below) ∧
      DefinedIn SavedGroupCredentialOverride.isDefined (·.password) defaults (selected :: below) ∧
      DefinedIn isDefined (·.savePassword) defaults (selected :: below) ∧
      DefinedIn isDefined (·.authMethod) defaults (selected :: below) ∧
      DefinedIn isDefined (·.identityFileId) defaults (selected :: below) ∧
      DefinedIn isDefined (·.identityFilePaths) defaults (selected :: below)

/-- The manual SSH fields of one record. -/
structure SameManualSsh (defaults other : SavedGroupDefaults) : Prop where
  username : defaults.username = other.username
  password : defaults.password = other.password
  savePassword : defaults.savePassword = other.savePassword
  authMethod : defaults.authMethod = other.authMethod
  identityFileId : defaults.identityFileId = other.identityFileId
  identityFilePaths : defaults.identityFilePaths = other.identityFilePaths

theorem mergeFrom_of_inherit {α : Type} (override : SavedGroupOverride α) :
    mergeFrom .inherit override = override := by
  cases override <;> rfl

theorem SavedGroupCredentialOverride.mergeFrom_of_inherit
    (override : SavedGroupCredentialOverride) :
    SavedGroupCredentialOverride.inherit.mergeFrom override = override := by
  cases override <;> rfl

theorem replaceTelnet_sameManualSsh (defaults child : SavedGroupDefaults) :
    SameManualSsh (defaults.replaceTelnet child) defaults := by
  unfold SavedGroupDefaults.replaceTelnet
  dsimp only
  repeat' split
  all_goals exact ⟨rfl, rfl, rfl, rfl, rfl, rfl⟩

/-- A record that selects an identity brings all manual fields itself. -/
theorem sameManualSsh_of_selects {defaults child : SavedGroupDefaults}
    (h : isDefined child.identityId = true) : SameManualSsh (defaults.mergeFrom child) child := by
  have hsame := replaceTelnet_sameManualSsh defaults.clearManualSshBundle child
  have hssh : defaults.replaceSsh child = defaults.clearManualSshBundle := if_pos h
  simp only [SavedGroupDefaults.mergeFrom, hssh]
  constructor
  · exact (congrArg (mergeFrom · child.username) hsame.username).trans (mergeFrom_of_inherit _)
  · exact (congrArg (·.mergeFrom child.password) hsame.password).trans
      (SavedGroupCredentialOverride.mergeFrom_of_inherit _)
  · exact (congrArg (mergeFrom · child.savePassword) hsame.savePassword).trans
      (mergeFrom_of_inherit _)
  · exact (congrArg (mergeFrom · child.authMethod) hsame.authMethod).trans (mergeFrom_of_inherit _)
  · exact (congrArg (mergeFrom · child.identityFileId) hsame.identityFileId).trans
      (mergeFrom_of_inherit _)
  · exact (congrArg (mergeFrom · child.identityFilePaths) hsame.identityFilePaths).trans
      (mergeFrom_of_inherit _)

/-- A record without an identity or manual fields leaves those above it. -/
theorem sameManualSsh_of_silent {defaults child : SavedGroupDefaults}
    (hselects : isDefined child.identityId = false) (hmanual : child.hasManualSsh = false) :
    SameManualSsh (defaults.mergeFrom child) defaults := by
  have hssh : defaults.replaceSsh child = defaults := by
    unfold SavedGroupDefaults.replaceSsh
    rw [if_neg (by simp [hselects]), if_neg (by simp [hmanual])]
  have hsame := replaceTelnet_sameManualSsh defaults child
  simp only [SavedGroupDefaults.hasManualSsh, Bool.or_eq_false_iff] at hmanual
  obtain ⟨⟨⟨⟨⟨husername, hpassword⟩, hsave⟩, hauth⟩, hfileId⟩, hfilePaths⟩ := hmanual
  simp only [SavedGroupDefaults.mergeFrom, hssh]
  constructor
  · exact (if_neg (by simp [husername])).trans hsame.username
  · exact (if_neg (by simp [hpassword])).trans hsame.password
  · exact (if_neg (by simp [hsave])).trans hsame.savePassword
  · exact (if_neg (by simp [hauth])).trans hsame.authMethod
  · exact (if_neg (by simp [hfileId])).trans hsame.identityFileId
  · exact (if_neg (by simp [hfilePaths])).trans hsame.identityFilePaths

theorem SameManualSsh.selected {chain above below : List SavedGroupConfig}
    {record : SavedGroupConfig} {defaults : SavedGroupDefaults}
    (h : SameManualSsh defaults record.defaults) (hchain : chain = above ++ record :: below)
    (hidentity : record.defaults.identityId = defaults.identityId) : Selected chain defaults := by
  intro reference hset
  have hmem : record ∈ record :: below := List.mem_cons_self
  exact ⟨above, record, below, hchain, hidentity.trans hset,
    fun _ => ⟨record, hmem, h.username.symm⟩, fun _ => ⟨record, hmem, h.password.symm⟩,
    fun _ => ⟨record, hmem, h.savePassword.symm⟩, fun _ => ⟨record, hmem, h.authMethod.symm⟩,
    fun _ => ⟨record, hmem, h.identityFileId.symm⟩,
    fun _ => ⟨record, hmem, h.identityFilePaths.symm⟩⟩

/-- While an identity is selected, the manual fields are those of its record. -/
theorem sameManualSsh_foldl (chain : List SavedGroupConfig) :
    isSet (chain.foldl ResolvedSavedGroupDefaults.mergeRecord .empty).defaults.identityId = true →
      ∃ above record below, chain = above ++ record :: below ∧
        record.defaults.identityId =
          (chain.foldl ResolvedSavedGroupDefaults.mergeRecord .empty).defaults.identityId ∧
        SameManualSsh (chain.foldl ResolvedSavedGroupDefaults.mergeRecord .empty).defaults
          record.defaults := by
  induction chain using List.reverseRecOn with
  | nil => exact nofun
  | append_singleton chain record ih =>
      rw [List.foldl_append, List.foldl_cons, List.foldl_nil]
      generalize chain.foldl ResolvedSavedGroupDefaults.mergeRecord .empty = resolved at ih ⊢
      have hmerged : (resolved.mergeRecord record).defaults =
          resolved.defaults.mergeFrom record.defaults := rfl
      have hidentity := identityId_mergeFrom resolved.defaults record.defaults
      rw [hmerged]
      cases hselects : isDefined record.defaults.identityId with
      | true =>
          rw [hselects, if_pos rfl] at hidentity
          exact fun _ => ⟨chain, record, [], rfl, hidentity.symm, sameManualSsh_of_selects hselects⟩
      | false =>
          rw [hselects, if_neg (by decide)] at hidentity
          cases hmanual : record.defaults.hasManualSsh with
          | true =>
              rw [hmanual, if_pos rfl] at hidentity
              rw [hidentity]
              exact nofun
          | false =>
              rw [hmanual, if_neg (by decide)] at hidentity
              rw [hidentity]
              intro hset
              obtain ⟨above, selected, below, rfl, hsame, hfields⟩ := ih hset
              have hsilent : SameManualSsh (resolved.defaults.mergeFrom record.defaults)
                  resolved.defaults := sameManualSsh_of_silent hselects hmanual
              exact ⟨above, selected, below ++ [record], by simp, hsame,
                ⟨hsilent.username.trans hfields.username, hsilent.password.trans hfields.password,
                  hsilent.savePassword.trans hfields.savePassword,
                  hsilent.authMethod.trans hfields.authMethod,
                  hsilent.identityFileId.trans hfields.identityFileId,
                  hsilent.identityFilePaths.trans hfields.identityFilePaths⟩⟩

/-! ### All credentials -/

/-- What is known of the owners of the credentials that a group path inherits. -/
structure KeepsProvenance (chain : List SavedGroupConfig)
    (resolved : ResolvedSavedGroupDefaults) : Prop where
  ssh : sshFields.Owned chain resolved
  telnet : telnetFields.Owned chain resolved
  proxy : ProxyOwned chain resolved
  sshOwner : resolved.sshCredentialOwner.isSome = true → resolved.defaults.password = .storedHint
  telnetOwner : resolved.telnetCredentialOwner.isSome = true →
    resolved.defaults.telnetPassword = .storedHint
  selected : Selected chain resolved.defaults

/-- **Provenance is kept** exactly where no password stands beside a cleared identity. -/
theorem keepsProvenance_iff (groupPath : Text) (configs : List SavedGroupConfig) :
    KeepsProvenance (ancestorRecords groupPath configs)
        (resolveGroupDefaultsWithProvenance groupPath configs) ↔
      ¬ sshFields.ClearsBeside (ancestorRecords groupPath configs) ∧
        ¬ telnetFields.ClearsBeside (ancestorRecords groupPath configs) := by
  rw [resolve_eq_foldl]
  generalize ancestorRecords groupPath configs = chain
  constructor
  · intro h
    exact ⟨(sshFields.owned_iff chain).mp h.ssh, (telnetFields.owned_iff chain).mp h.telnet⟩
  · rintro ⟨hssh, htelnet⟩
    refine ⟨(sshFields.owned_iff chain).mpr hssh, (telnetFields.owned_iff chain).mpr htelnet,
      proxyOwned_foldl chain, sshFields.owner_foldl chain, telnetFields.owner_foldl chain, ?_⟩
    intro reference hset
    obtain ⟨above, record, below, hchain, hidentity, hfields⟩ :=
      sameManualSsh_foldl chain (by rw [hset]; rfl)
    exact hfields.selected hchain hidentity reference hset

/-- A group that clears the Telnet identity and saves a Telnet password. -/
def clearingGroup : SavedGroupConfig where
  recordVersion := groupConfigRecordVersion
  id := "team-group".toList
  revision := 1
  path := "Team".toList
  defaults := { SavedGroupDefaults.empty with
    telnetIdentityId := .clear, telnetPassword := .storedHint }
  createdAt := 1
  updatedAt := 1

theorem provenance_lost : (∀ config ∈ [clearingGroup], config.isValid = true) ∧
    ¬ KeepsProvenance (ancestorRecords "Team".toList [clearingGroup])
      (resolveGroupDefaultsWithProvenance "Team".toList [clearingGroup]) := by
  have hrun : clearingGroup.isValid = true ∧
      (resolveGroupDefaultsWithProvenance "Team".toList [clearingGroup]).defaults.telnetPassword =
        .storedHint ∧
      isSet (resolveGroupDefaultsWithProvenance "Team".toList
        [clearingGroup]).defaults.telnetIdentityId = false ∧
      (resolveGroupDefaultsWithProvenance "Team".toList
        [clearingGroup]).telnetCredentialOwner = none := by
    decide
  obtain ⟨hvalid, hpassword, hidle, hnone⟩ := hrun
  refine ⟨by simpa using hvalid, fun h => ?_⟩
  obtain ⟨-, record, -, -, howner, -, -⟩ := h.telnet hpassword hidle
  have hsome : (resolveGroupDefaultsWithProvenance "Team".toList
    [clearingGroup]).telnetCredentialOwner = some record.id := howner
  rw [hnone] at hsome
  cases hsome

end Netcatty.Vault.GroupConfig
