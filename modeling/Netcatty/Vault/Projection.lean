import Netcatty.Vault.EffectiveHost

/-! # Stages of a projection

The defaults of a group are applied to a host in stages, and each is described by what it changes: a
field that the host has is kept (`Keeps`), and the owner of a credential changes together with the
field that says that there is one (`applySshDefaults_cases`, `applyTelnetDefaults_cases`,
`applyProxyDefaults_cases`). -/

namespace Netcatty.Vault.GroupConfig

/-! ### Fields -/

namespace Fields

variable (fields : Fields) (key : String)

theorem get?_remove_of_ne {other : String} (h : other ≠ key) :
    (remove fields key).get? other = fields.get? other := by
  have hne : other.toList ≠ key.toList := fun heq => h (String.toList_inj.mp heq)
  unfold remove Vault.Fields.get?
  induction fields with
  | nil => rfl
  | cons field fields ih =>
      obtain ⟨name, value⟩ := field
      by_cases hname : name = key.toList
      · rw [List.filter_cons_of_neg (by simp [hname]), ih, List.lookup_cons,
          beq_false_of_ne (hname ▸ hne)]
      · rw [List.filter_cons_of_pos (by simp [hname]), List.lookup_cons, List.lookup_cons, ih]

theorem get?_remove_self : (remove fields key).get? key = none := by
  unfold remove Vault.Fields.get?
  rw [List.lookup_eq_none_iff]
  intro field hfield
  have hne : field.1 ≠ key.toList := of_decide_eq_true (List.mem_filter.mp hfield).2
  simpa using hne.symm

theorem lookup_orderedInsert_of_ne {name other : Text} (value : Value) (h : other ≠ name) :
    (fields.orderedInsert (fun a b => a.1 ≤ b.1) (name, value)).lookup other =
      fields.lookup other := by
  induction fields with
  | nil => rw [List.orderedInsert_nil, List.lookup_cons, beq_false_of_ne h]
  | cons field fields ih =>
      rw [List.orderedInsert_cons]
      split
      · rw [List.lookup_cons, beq_false_of_ne h]
      · rw [List.lookup_cons, List.lookup_cons, ih]

theorem lookup_orderedInsert_self {name : Text} (value : Value)
    (h : fields.lookup name = none) :
    (fields.orderedInsert (fun a b => a.1 ≤ b.1) (name, value)).lookup name = some value := by
  induction fields with
  | nil => simp
  | cons field fields ih =>
      rw [List.orderedInsert_cons]
      split
      · simp
      · rw [List.lookup_cons] at h ⊢
        split at h
        · cases h
        · exact ih h

theorem get?_insert_of_ne (value : Value) {other : String} (h : other ≠ key) :
    (insert fields key value).get? other = fields.get? other := by
  have hne : other.toList ≠ key.toList := fun heq => h (String.toList_inj.mp heq)
  rw [← get?_remove_of_ne fields key h]
  exact lookup_orderedInsert_of_ne _ value hne

@[simp] theorem get?_insert_self (value : Value) :
    (insert fields key value).get? key = some value :=
  lookup_orderedInsert_self _ value (get?_remove_self fields key)

end Fields

section Overrides

variable {fields : Fields}

theorem applyOverride_get?_of_ne {key other : String} (value : SavedGroupOverride Value)
    (emptyIsExplicit : Bool) (h : other ≠ key) :
    (applyOverride fields key value emptyIsExplicit).get? other = fields.get? other := by
  unfold applyOverride
  split
  · rfl
  · cases value with
    | inherit => rfl
    | clear => exact Fields.get?_remove_of_ne fields key h
    | set value => exact Fields.get?_insert_of_ne fields key value h

theorem applyOverride_of_explicit {key : String} (value : SavedGroupOverride Value)
    {emptyIsExplicit : Bool} (h : fieldInherits (fields.get? key) emptyIsExplicit = false) :
    applyOverride fields key value emptyIsExplicit = fields := by
  unfold applyOverride
  rw [h]
  rfl

/-- The fields whose empty text is a value of its own. -/
def emptyIsExplicit (key : String) : Bool :=
  key = "identityId" || key = "telnetIdentityId" || key = "telnetUsername"

/-- **Fields that the host has keep their values.**  `hasSavedCredential` says whether there is a
password, of the host or of a group. -/
def Keeps (fields fields' : Fields) : Prop :=
  ∀ key, key ≠ "hasSavedCredential" →
    fieldInherits (fields.get? key) (emptyIsExplicit key) = false →
    fields'.get? key = fields.get? key

theorem Keeps.refl (fields : Fields) : Keeps fields fields := fun _ _ _ => rfl

theorem Keeps.trans {fields' fields'' : Fields} (h : Keeps fields fields')
    (h' : Keeps fields' fields'') : Keeps fields fields'' := by
  intro key hkey hexplicit
  have hsame := h key hkey hexplicit
  exact (h' key hkey (by rwa [hsame])).trans hsame

theorem keeps_insert_hint (value : Value) :
    Keeps fields (Fields.insert fields "hasSavedCredential" value) :=
  fun _ hkey _ => Fields.get?_insert_of_ne fields _ value hkey

theorem keeps_applyOverride {key : String} (value : SavedGroupOverride Value) {explicit : Bool}
    (h : emptyIsExplicit key = explicit) :
    Keeps fields (applyOverride fields key value explicit) := by
  intro other _ hother
  by_cases heq : other = key
  · subst heq
    rw [applyOverride_of_explicit value (h ▸ hother)]
  · exact applyOverride_get?_of_ne value explicit heq

theorem applyOverrides_get?_of_notMem {overrides : List (String × SavedGroupOverride Value)}
    {key : String} (h : key ∉ overrides.map (·.1)) :
    (applyOverrides fields overrides).get? key = fields.get? key := by
  induction overrides generalizing fields with
  | nil => rfl
  | cons override overrides ih =>
      rw [List.map_cons, List.mem_cons, not_or] at h
      exact (ih h.2).trans (applyOverride_get?_of_ne _ _ h.1)

theorem keeps_applyOverrides {overrides : List (String × SavedGroupOverride Value)}
    (h : ∀ override ∈ overrides, emptyIsExplicit override.1 = false) :
    Keeps fields (applyOverrides fields overrides) := by
  induction overrides generalizing fields with
  | nil => exact Keeps.refl fields
  | cons override overrides ih =>
      exact (keeps_applyOverride override.2 (h override List.mem_cons_self)).trans
        (ih fun other hother => h other (List.mem_cons_of_mem _ hother))

theorem nonCredentialDefaults_keys (defaults : SavedGroupDefaults) (includeHostChain : Bool) :
    "hasSavedCredential" ∉ (nonCredentialDefaults defaults includeHostChain).map (·.1) ∧
    "proxyConfig" ∉ (nonCredentialDefaults defaults includeHostChain).map (·.1) ∧
    ∀ override ∈ nonCredentialDefaults defaults includeHostChain,
      emptyIsExplicit override.1 = false := by
  cases includeHostChain <;> simp [nonCredentialDefaults, emptyIsExplicit]

end Overrides

/-! ### SSH -/

/-- Whether the password of the group is the host's: the host has not selected an identity, has no
password of its own, and does not refuse to save one. -/
def InheritsSshPassword (resolved : ResolvedSavedGroupDefaults) (fields : Fields) : Prop :=
  (fields.get? "identityId").any jsTruthy = false ∧ hostBlocksGroupPassword fields = false ∧
    isSet resolved.defaults.identityId = false ∧ resolved.defaults.password = .storedHint

/-- The fields that the SSH defaults do not touch. -/
def SshFrame (fields fields' : Fields) : Prop :=
  ∀ key, key ∉ ["hasSavedCredential", "savePassword", "identityId", "identityFileId",
    "identityFilePaths"] → fields'.get? key = fields.get? key

/-- What the SSH defaults can do. -/
inductive AppliesSsh (resolved : ResolvedSavedGroupDefaults) (fields : Fields) (username : Text)
    (owner : Option SavedHostConnectionCredentialOwner) :
    Except SavedHostConnectionProjectionError SshProjection → Prop
  | kept (ssh : SshProjection) (hkeeps : Keeps fields ssh.fields)
      (hframe : SshFrame fields ssh.fields)
      (husername : username.isEmpty = false → ssh.effectiveUsername = username)
      (hinherits : ¬ InheritsSshPassword resolved fields) (howner : ssh.credentialOwner = owner)
      (hhint : ssh.fields.get? "hasSavedCredential" = fields.get? "hasSavedCredential") :
      AppliesSsh resolved fields username owner (.ok ssh)
  | inherited (ssh : SshProjection) (hkeeps : Keeps fields ssh.fields)
      (hframe : SshFrame fields ssh.fields)
      (husername : username.isEmpty = false → ssh.effectiveUsername = username) (id : Text)
      (hinherits : InheritsSshPassword resolved fields)
      (hid : resolved.sshCredentialOwner = some id)
      (howner : ssh.credentialOwner = some (.group id))
      (hhint : ssh.fields.get? "hasSavedCredential" = some (.bool true)) :
      AppliesSsh resolved fields username owner (.ok ssh)
  | missing (hinherits : InheritsSshPassword resolved fields)
      (hnone : resolved.sshCredentialOwner = none) :
      AppliesSsh resolved fields username owner (.error .missingCredentialProvenance)

/-- The SSH fields after the password. -/
def sshOverrides (defaults : SavedGroupDefaults) (fields : Fields) : Fields :=
  let fields := applyOverride fields "savePassword" (mapOverride .bool defaults.savePassword) false
  let fields :=
    applyOverride fields "identityId" (mapOverride identityValue defaults.identityId) true
  let fields :=
    applyOverride fields "identityFileId" (mapOverride .string defaults.identityFileId) false
  applyOverride fields "identityFilePaths" (mapOverride texts defaults.identityFilePaths) false

theorem sshOverrides_spec (defaults : SavedGroupDefaults) (fields : Fields) :
    Keeps fields (sshOverrides defaults fields) ∧
      ∀ key, key ∉ ["savePassword", "identityId", "identityFileId", "identityFilePaths"] →
        (sshOverrides defaults fields).get? key = fields.get? key := by
  unfold sshOverrides
  refine ⟨?_, fun key hkey => ?_⟩
  · exact (((keeps_applyOverride _ rfl).trans (keeps_applyOverride _ rfl)).trans
      (keeps_applyOverride _ rfl)).trans (keeps_applyOverride _ rfl)
  · simp only [List.mem_cons, List.not_mem_nil, or_false, not_or] at hkey
    obtain ⟨hsave, hidentity, hfile, hpaths⟩ := hkey
    rw [applyOverride_get?_of_ne _ _ hpaths, applyOverride_get?_of_ne _ _ hfile,
      applyOverride_get?_of_ne _ _ hidentity, applyOverride_get?_of_ne _ _ hsave]

/-- The username that a host gets. -/
def sshUsername (defaults : SavedGroupDefaults) (username : Text) : Text :=
  if username.isEmpty then
    match defaults.username with
    | .set username => username
    | _ => username
  else username

theorem applySshDefaults_eq (host : SavedHost) (resolved : ResolvedSavedGroupDefaults)
    (fields : Fields) (username : Text) (owner : Option SavedHostConnectionCredentialOwner) :
    applySshDefaults host resolved fields username owner =
      if skipGroupSshBundle host resolved.defaults fields then .ok ⟨fields, username, owner⟩
      else if !hostBlocksGroupPassword fields && !isSet resolved.defaults.identityId &&
          resolved.defaults.password = .storedHint then
        match resolved.sshCredentialOwner with
        | none => .error .missingCredentialProvenance
        | some id =>
          .ok ⟨sshOverrides resolved.defaults
            (Fields.insert fields "hasSavedCredential" (.bool true)),
            sshUsername resolved.defaults username, some (.group id)⟩
      else .ok ⟨sshOverrides resolved.defaults fields, sshUsername resolved.defaults username,
        owner⟩ := by
  unfold applySshDefaults
  by_cases hskip : skipGroupSshBundle host resolved.defaults fields = true
  · simp only [hskip, if_true]
    rfl
  · simp only [hskip, if_false, Bool.false_eq_true]
    cases hblocks : (!hostBlocksGroupPassword fields && !isSet resolved.defaults.identityId) with
    | false => rfl
    | true =>
        cases hpassword : resolved.defaults.password with
        | inherit => rfl
        | clear => rfl
        | storedHint => cases resolved.sshCredentialOwner <;> rfl

/-- **What the SSH defaults do.** -/
theorem applySshDefaults_cases (host : SavedHost) (resolved : ResolvedSavedGroupDefaults)
    (fields : Fields) (username : Text) (owner : Option SavedHostConnectionCredentialOwner) :
    AppliesSsh resolved fields username owner
      (applySshDefaults host resolved fields username owner) := by
  have husername : username.isEmpty = false →
      sshUsername resolved.defaults username = username := fun h => by
    unfold sshUsername
    rw [h]
    rfl
  have hframe : SshFrame fields (sshOverrides resolved.defaults fields) := fun key hkey =>
    (sshOverrides_spec _ _).2 key fun h => hkey (List.mem_cons_of_mem _ h)
  rw [applySshDefaults_eq]
  split
  · rename_i hskip
    refine .kept _ (Keeps.refl fields) (fun _ _ => rfl) (fun _ => rfl) ?_ rfl rfl
    rintro ⟨hidentity, -, hidle, -⟩
    simp [skipGroupSshBundle, hidentity, hidle] at hskip
  · rename_i hskip
    split
    · rename_i hinherits
      simp only [Bool.and_eq_true, Bool.not_eq_true', decide_eq_true_eq] at hinherits
      have hidentity : (fields.get? "identityId").any jsTruthy = false := by
        simp only [skipGroupSshBundle, Bool.or_eq_true, not_or, Bool.not_eq_true] at hskip
        exact hskip.1
      have hinherits : InheritsSshPassword resolved fields :=
        ⟨hidentity, hinherits.1.1, hinherits.1.2, hinherits.2⟩
      split
      · rename_i hnone
        exact .missing hinherits hnone
      · rename_i id hid
        obtain ⟨hkeeps, hother⟩ := sshOverrides_spec resolved.defaults
          (Fields.insert fields "hasSavedCredential" (.bool true))
        refine .inherited _ ((keeps_insert_hint _).trans hkeeps) (fun key hkey => ?_) husername id
          hinherits hid rfl ?_
        · rw [hother key fun h => hkey (List.mem_cons_of_mem _ h),
            Fields.get?_insert_of_ne _ _ _ (by rintro rfl; exact hkey List.mem_cons_self)]
        · rw [hother _ (by decide), Fields.get?_insert_self]
    · rename_i hinherits
      refine .kept _ (sshOverrides_spec _ _).1 hframe husername ?_ rfl
        ((sshOverrides_spec _ _).2 _ (by decide))
      rintro ⟨-, hblocks, hidle, hpassword⟩
      simp [hblocks, hidle, hpassword] at hinherits

/-! ### Telnet -/

/-- Whether the Telnet password of the group is the host's. -/
def InheritsTelnetPassword (host : SavedHost) (resolved : ResolvedSavedGroupDefaults)
    (fields : Fields) (owner : Option SavedHostConnectionCredentialOwner) : Prop :=
  owner = none ∧ hostTelnetManual host fields = false ∧
    isSet resolved.defaults.telnetIdentityId = false ∧
    resolved.defaults.telnetPassword = .storedHint

/-- What the Telnet defaults can do. -/
inductive AppliesTelnet (host : SavedHost) (resolved : ResolvedSavedGroupDefaults)
    (fields : Fields) (owner : Option SavedHostConnectionCredentialOwner) :
    Except SavedHostConnectionProjectionError
      (Fields × Option SavedHostConnectionCredentialOwner) → Prop
  | applied (fields' : Fields) (owner' : Option SavedHostConnectionCredentialOwner)
      (hkeeps : Keeps fields fields')
      (hframe : ∀ key, key ∉ ["telnetIdentityId", "telnetUsername"] →
        fields'.get? key = fields.get? key)
      (hinherits : InheritsTelnetPassword host resolved fields owner →
        resolved.telnetCredentialOwner ≠ none) :
      AppliesTelnet host resolved fields owner (.ok (fields', owner'))
  | missing (hinherits : InheritsTelnetPassword host resolved fields owner)
      (hnone : resolved.telnetCredentialOwner = none) :
      AppliesTelnet host resolved fields owner (.error .missingCredentialProvenance)

/-- **What the Telnet defaults do.** -/
theorem applyTelnetDefaults_cases (host : SavedHost) (resolved : ResolvedSavedGroupDefaults)
    (fields : Fields) (owner : Option SavedHostConnectionCredentialOwner) :
    AppliesTelnet host resolved fields owner (applyTelnetDefaults host resolved fields owner) := by
  unfold applyTelnetDefaults
  extract_lets defaults manual fields₁ fields₂
  have hfields₁ : Keeps fields fields₁ ∧ ∀ key, key ≠ "telnetIdentityId" →
      fields₁.get? key = fields.get? key := by
    unfold fields₁
    split
    · exact ⟨Keeps.refl fields, fun _ _ => rfl⟩
    · exact ⟨keeps_applyOverride _ rfl, fun key hkey => applyOverride_get?_of_ne _ _ hkey⟩
  have hkeeps : Keeps fields fields₂ := hfields₁.1.trans (keeps_applyOverride _ rfl)
  have hframe : ∀ key, key ∉ ["telnetIdentityId", "telnetUsername"] →
      fields₂.get? key = fields.get? key := by
    intro key hkey
    simp only [List.mem_cons, List.not_mem_nil, or_false, not_or] at hkey
    exact (applyOverride_get?_of_ne _ _ hkey.2).trans (hfields₁.2 key hkey.1)
  split
  · rename_i hinherits
    simp only [Bool.and_eq_true, Option.isNone_iff_eq_none, Bool.not_eq_true',
      decide_eq_true_eq] at hinherits
    split
    · rename_i hnone
      exact .missing ⟨hinherits.1.1.1, hinherits.1.1.2, hinherits.1.2, hinherits.2⟩ hnone
    · rename_i id hid
      exact .applied _ _ hkeeps hframe fun _ => by rw [hid]; exact nofun
  · rename_i hinherits
    refine .applied _ _ hkeeps hframe ?_
    rintro ⟨hnone, hmanual, hidle, hpassword⟩
    exact absurd (by simp [hnone, manual, hmanual, defaults, hidle, hpassword]) hinherits

/-! ### Proxies -/

theorem replace_get?_of_ne {fields : Fields} {removed inserted key : String} (value : Value)
    (hremoved : key ≠ removed) (hinserted : key ≠ inserted) :
    (Fields.insert (Fields.remove fields removed) inserted value).get? key = fields.get? key := by
  rw [Fields.get?_insert_of_ne _ _ _ hinserted, Fields.get?_remove_of_ne _ _ hremoved]

/-- A field that is missing makes room for another one that the host does not have. -/
theorem keeps_replace {fields : Fields} {removed inserted : String} (value : Value)
    (hremoved : fields.get? removed = none)
    (hinserted : fieldInherits (fields.get? inserted) (emptyIsExplicit inserted) = true) :
    Keeps fields (Fields.insert (Fields.remove fields removed) inserted value) := by
  intro key _ hexplicit
  refine replace_get?_of_ne value ?_ ?_
  · rintro rfl
    rw [hremoved] at hexplicit
    cases hexplicit
  · rintro rfl
    rw [hinserted] at hexplicit
    cases hexplicit

/-- What the proxy defaults can do. -/
inductive AppliesProxy (E : ProjectionExternals) (resolved : ResolvedSavedGroupDefaults)
    (fields : Fields) (owner : Option SavedHostConnectionCredentialOwner) :
    Except SavedHostConnectionProjectionError
      (Fields × Option SavedHostConnectionCredentialOwner) → Prop
  | untouched (hproxy : resolved.defaults.proxy ≠ .clear) :
      AppliesProxy E resolved fields owner (.ok (fields, owner))
  | cleared (hproxy : resolved.defaults.proxy = .clear) :
      AppliesProxy E resolved fields owner (.ok (fields, none))
  | profile (fields' : Fields) (hkeeps : Keeps fields fields')
      (hproxy : resolved.defaults.proxy ≠ .clear) (hconfig : fields.get? "proxyConfig" = none)
      (hconfig' : fields'.get? "proxyConfig" = none)
      (hhint : fields'.get? "hasSavedCredential" = fields.get? "hasSavedCredential") :
      AppliesProxy E resolved fields owner (.ok (fields', none))
  | inherited (fields' : Fields) (config : SavedProxyConfig) (hkeeps : Keeps fields fields')
      (hproxy : resolved.defaults.proxy = .inline config)
      (hconfig' : fields'.get? "proxyConfig" = some (E.proxyConfigToValue config))
      (hhint : fields'.get? "hasSavedCredential" = fields.get? "hasSavedCredential")
      (howner : inlineProxyHasSavedManualCredential config = true →
        resolved.inlineProxyCredentialOwner ≠ none) :
      AppliesProxy E resolved fields owner (.ok (fields',
        if inlineProxyHasSavedManualCredential config then
          resolved.inlineProxyCredentialOwner.map .group
        else none))
  | missing (config : SavedProxyConfig) (hproxy : resolved.defaults.proxy = .inline config)
      (hsaved : inlineProxyHasSavedManualCredential config = true)
      (hnone : resolved.inlineProxyCredentialOwner = none) :
      AppliesProxy E resolved fields owner (.error .missingCredentialProvenance)

/-- **What the proxy defaults do.** -/
theorem applyProxyDefaults_cases (E : ProjectionExternals) (resolved : ResolvedSavedGroupDefaults)
    (fields : Fields) (owner : Option SavedHostConnectionCredentialOwner) :
    AppliesProxy E resolved fields owner (applyProxyDefaults E resolved fields owner) := by
  unfold applyProxyDefaults
  split
  · rename_i hproxy
    exact .untouched (by rw [hproxy]; exact nofun)
  · rename_i hproxy
    exact .cleared hproxy
  · rename_i profileId hproxy
    have hproxy : resolved.defaults.proxy ≠ .clear := by rw [hproxy]; exact nofun
    split
    · rename_i hinherits
      rw [Bool.and_eq_true, Option.isNone_iff_eq_none] at hinherits
      refine .profile _ (keeps_replace _ hinherits.1 hinherits.2) hproxy hinherits.1 ?_
        (replace_get?_of_ne _ (by decide) (by decide))
      rw [Fields.get?_insert_of_ne _ _ _ (by decide), Fields.get?_remove_self]
    · exact .untouched hproxy
  · rename_i config hproxy
    split
    · rename_i hinherits
      rw [Bool.and_eq_true, Option.isNone_iff_eq_none] at hinherits
      have happlied := @AppliesProxy.inherited E _ _ owner
        (Fields.insert (Fields.remove fields "proxyProfileId") "proxyConfig"
          (E.proxyConfigToValue config)) config (keeps_replace _ hinherits.1 hinherits.2) hproxy
        (Fields.get?_insert_self _ _ _) (replace_get?_of_ne _ (by decide) (by decide))
      dsimp only
      split
      · rename_i hsaved
        rw [if_pos hsaved] at happlied
        split
        · rename_i hnone
          exact .missing config hproxy hsaved hnone
        · rename_i id hid
          rw [hid] at happlied
          exact happlied fun _ => nofun
      · rename_i hsaved
        rw [if_neg hsaved] at happlied
        exact happlied fun h => absurd h hsaved
    · exact .untouched (by rw [hproxy]; exact nofun)

end Netcatty.Vault.GroupConfig
