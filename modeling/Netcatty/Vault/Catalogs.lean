import Netcatty.Library.Catalog
import Netcatty.Vault.Records

/-! # Groups, snippets, rules, known hosts and logs

The catalogs of the vault that are kept besides the graph's entities.  A group path catalog
(`SavedGroupCatalog`) and a notes and snippets catalog (`SavedNotesSnippetsCatalog`) can only be
built by code that checks them, so each carries what that check establishes. -/

namespace Netcatty.Vault

open Catalog
open Serial (isControl isWhitespace trim)

/-! ### Groups -/

/-- An override that tells an absent setting from a cleared one. -/
inductive SavedGroupOverride (α : Type)
  | inherit
  | clear
  | set (value : α)
  deriving DecidableEq

inductive SavedGroupIdentityReference
  | key (id : SavedIdentityReferenceId)
  | password (id : SavedPasswordIdentityId)
  deriving DecidableEq

inductive SavedGroupProxyOverride
  | inherit
  | clear
  | profile (id : SavedProxyProfileId)
  | inline (config : SavedProxyConfig)
  deriving DecidableEq

structure SavedGroupAlgorithmOverrides where
  kex : Option (List Text)
  cipher : Option (List Text)
  hmac : Option (List Text)
  serverHostKey : Option (List Text)
  compress : Option (List Text)
  deriving DecidableEq

def maxCollectionItems : ℕ := 256

/-- No list of algorithms is longer than the bound. -/
def SavedGroupAlgorithmOverrides.isBounded (algorithms : SavedGroupAlgorithmOverrides) : Bool :=
  [algorithms.kex, algorithms.cipher, algorithms.hmac, algorithms.serverHostKey,
    algorithms.compress].all fun values => values.all (·.length ≤ maxCollectionItems)

/-- The defaults of a group; `settings` keeps those that relate to no other record. -/
structure SavedGroupDefaults where
  identityId : SavedGroupOverride SavedGroupIdentityReference
  identityFileId : SavedGroupOverride SavedSshKeyReferenceId
  proxy : SavedGroupProxyOverride
  hostChain : SavedGroupOverride (List SavedHostId)
  loginScriptId : SavedGroupOverride Text
  algorithms : SavedGroupOverride SavedGroupAlgorithmOverrides
  telnetIdentityId : SavedGroupOverride SavedPasswordIdentityId
  settings : Value
  deriving DecidableEq

def SavedGroupDefaults.isValid (defaults : SavedGroupDefaults) : Bool :=
  (match defaults.identityId with
    | .set (.key id) | .set (.password id) => isOpaqueId id
    | _ => true) &&
  (match defaults.identityFileId with
    | .set id => isOpaqueId id
    | _ => true) &&
  (match defaults.proxy with
    | .profile id => isOpaqueId id
    | _ => true) &&
  (match defaults.telnetIdentityId with
    | .set id => isOpaqueId id
    | _ => true) &&
  (match defaults.algorithms with
    | .set algorithms => algorithms.isBounded
    | _ => true)

structure SavedGroupConfig where
  recordVersion : ℕ
  id : Text
  revision : ℕ
  path : Text
  defaults : SavedGroupDefaults
  createdAt : ℕ
  updatedAt : ℕ
  deriving DecidableEq

def groupConfigRecordVersion : ℕ := 1

/-- `validate` of a group; the store maps every one of its errors to one. -/
def SavedGroupConfig.isValid (group : SavedGroupConfig) : Bool :=
  group.recordVersion = groupConfigRecordVersion && isOpaqueId group.id && group.revision ≠ 0 &&
    group.createdAt ≤ group.updatedAt && group.defaults.isValid

def SavedGroupConfig.stableCmp (E : Externals) : SavedGroupConfig → SavedGroupConfig → Ordering :=
  labelCmp E (·.path) (·.id)

instance (E : Externals) : Std.TransCmp (SavedGroupConfig.stableCmp E) :=
  inferInstanceAs (Std.TransCmp (labelCmp E _ _))

def SavedGroupConfig.businessFieldsEqual (left right : SavedGroupConfig) : Bool :=
  left.id = right.id && left.path = right.path && left.defaults = right.defaults

/-! ### Explicit group paths -/

def maxGroupCatalogEntities : ℕ := 10000

/-- The group paths that are saved explicitly, in the order of their first insertion. -/
structure SavedGroupCatalog where
  explicitPaths : List Text
  nodup : explicitPaths.Nodup
  bounded : explicitPaths.length ≤ maxGroupCatalogEntities
  deriving DecidableEq

def SavedGroupCatalog.empty : SavedGroupCatalog := ⟨[], .nil, Nat.zero_le _⟩

def SavedGroupCatalog.isEmpty (catalog : SavedGroupCatalog) : Bool := catalog.explicitPaths.isEmpty

def SavedGroupCatalog.isExplicit (catalog : SavedGroupCatalog) (path : Text) : Bool :=
  catalog.explicitPaths.contains path

/-- `insert_path`: the catalog, and whether the path is new; `none` where the catalog is full. -/
def SavedGroupCatalog.insertPath (catalog : SavedGroupCatalog) (path : Text) :
    Option (SavedGroupCatalog × Bool) :=
  if hmem : path ∈ catalog.explicitPaths then some (catalog, false)
  else if hfull : maxGroupCatalogEntities ≤ catalog.explicitPaths.length then none
  else
    some (⟨catalog.explicitPaths ++ [path],
      List.nodup_append.mpr ⟨catalog.nodup, List.nodup_singleton path, by
        rintro a ha b hb rfl
        exact hmem (List.mem_singleton.mp hb ▸ ha)⟩,
      by simp only [List.length_append, List.length_singleton]; omega⟩, true)

/-! ### Notes and snippets -/

inductive SavedSnippetKind
  | snippet
  | script
  deriving DecidableEq

/-- A snippet; `settings` keeps the fields that hold neither text nor a relation. -/
structure SavedSnippet where
  id : Text
  label : Text
  command : Text
  tags : Option (List Text)
  package : Option Text
  targets : Option (List SavedHostId)
  targetGroups : Option (List Text)
  shortkey : Option Text
  kind : Option SavedSnippetKind
  description : Option Text
  triggerPattern : Option Text
  settings : Value
  deriving DecidableEq

structure SavedVaultNote where
  id : Text
  title : Text
  content : Text
  group : Option Text
  tags : Option (List Text)
  linkedHostIds : Option (List SavedHostId)
  settings : Value
  deriving DecidableEq

def maxNotesSnippetsCatalogEntities : ℕ := 10000
def maxNotesSnippetsListValues : ℕ := 10000
def maxSmallTextBytes : ℕ := 32 * 1024
def maxNotesSnippetsTextBytes : ℕ := 25 * 1024 * 1024

def valuesBytes (values : Option (List Text)) : ℕ := ((values.getD []).map utf8Len).sum

def textBytes (value : Option Text) : ℕ := (value.map utf8Len).getD 0

def SavedSnippet.textBytes (snippet : SavedSnippet) : ℕ :=
  utf8Len snippet.id + utf8Len snippet.label + utf8Len snippet.command + valuesBytes snippet.tags +
    Vault.textBytes snippet.package + valuesBytes snippet.targets +
    valuesBytes snippet.targetGroups + Vault.textBytes snippet.shortkey +
    Vault.textBytes snippet.description + Vault.textBytes snippet.triggerPattern

def SavedVaultNote.textBytes (note : SavedVaultNote) : ℕ :=
  utf8Len note.id + utf8Len note.title + utf8Len note.content + Vault.textBytes note.group +
    valuesBytes note.tags + valuesBytes note.linkedHostIds

/-- The four optional parts of a notes and snippets catalog. -/
structure NotesSnippetsParts where
  snippets : Option (List SavedSnippet)
  snippetPackages : Option (List Text)
  notes : Option (List SavedVaultNote)
  noteGroups : Option (List Text)
  deriving DecidableEq

def NotesSnippetsParts.absent : NotesSnippetsParts := ⟨none, none, none, none⟩

def NotesSnippetsParts.textBytes (parts : NotesSnippetsParts) : ℕ :=
  ((parts.snippets.getD []).map SavedSnippet.textBytes).sum + valuesBytes parts.snippetPackages +
    ((parts.notes.getD []).map SavedVaultNote.textBytes).sum + valuesBytes parts.noteGroups

/-- First occurrences, in order. -/
def dedupFirst : List Text → List Text → List Text
  | _, [] => []
  | seen, value :: values =>
    if value ∈ seen then dedupFirst seen values else value :: dedupFirst (value :: seen) values

/-- `normalize_plain_catalog_values`. -/
def normalizePlainCatalogValues : Option (List Text) → Option (Option (List Text))
  | none => some none
  | some values =>
    if maxNotesSnippetsListValues < values.length ∨ values.any (maxSmallTextBytes < utf8Len ·) then
      none
    else some (some (dedupFirst [] values))

/-- The limits on the number of entries, and the ids that may not repeat. -/
structure NotesSnippetsParts.Bounded (parts : NotesSnippetsParts) : Prop where
  snippets : (parts.snippets.getD []).length ≤ maxNotesSnippetsCatalogEntities
  notes : (parts.notes.getD []).length ≤ maxNotesSnippetsCatalogEntities
  nodup_snippets : ((parts.snippets.getD []).map (·.id)).Nodup
  nodup_notes : ((parts.notes.getD []).map (·.id)).Nodup
  noteGroups : (parts.noteGroups.getD []).length ≤ maxNotesSnippetsListValues

instance (parts : NotesSnippetsParts) : Decidable parts.Bounded :=
  decidable_of_iff
    ((parts.snippets.getD []).length ≤ maxNotesSnippetsCatalogEntities ∧
      (parts.notes.getD []).length ≤ maxNotesSnippetsCatalogEntities ∧
      ((parts.snippets.getD []).map (·.id)).Nodup ∧ ((parts.notes.getD []).map (·.id)).Nodup ∧
      (parts.noteGroups.getD []).length ≤ maxNotesSnippetsListValues)
    ⟨fun ⟨h₁, h₂, h₃, h₄, h₅⟩ => ⟨h₁, h₂, h₃, h₄, h₅⟩, fun ⟨h₁, h₂, h₃, h₄, h₅⟩ => ⟨h₁, h₂, h₃, h₄, h₅⟩⟩

/-- `from_normalized_parts`; the store maps every one of its errors to one. -/
def NotesSnippetsParts.normalize (parts : NotesSnippetsParts) : Option NotesSnippetsParts :=
  match normalizePlainCatalogValues parts.snippetPackages with
  | none => none
  | some snippetPackages =>
    let catalog := { parts with snippetPackages := snippetPackages }
    if parts.Bounded ∧ catalog.textBytes ≤ maxNotesSnippetsTextBytes then some catalog else none

theorem dedupFirst_idempotent (values seen : List Text) :
    dedupFirst seen (dedupFirst seen values) = dedupFirst seen values := by
  induction values generalizing seen with
  | nil => rfl
  | cons value values ih =>
      by_cases h : value ∈ seen
      · simp only [dedupFirst, h, if_true, ih]
      · simp only [dedupFirst, h, if_false, ih]

theorem dedupFirst_sublist (values seen : List Text) : (dedupFirst seen values).Sublist values := by
  induction values generalizing seen with
  | nil => exact List.Sublist.refl _
  | cons value values ih =>
      unfold dedupFirst
      split_ifs
      · exact (ih seen).cons _
      · exact (ih (value :: seen)).cons_cons _

theorem mem_dedupFirst {values seen : List Text} {value : Text} :
    value ∈ dedupFirst seen values ↔ value ∈ values ∧ value ∉ seen := by
  induction values generalizing seen with
  | nil => simp [dedupFirst]
  | cons a values ih =>
      unfold dedupFirst
      split_ifs with h
      · rw [ih, List.mem_cons]
        constructor
        · rintro ⟨hmem, hseen⟩
          exact ⟨Or.inr hmem, hseen⟩
        · rintro ⟨rfl | hmem, hseen⟩
          · exact absurd h hseen
          · exact ⟨hmem, hseen⟩
      · rw [List.mem_cons, ih, List.mem_cons, List.mem_cons, not_or]
        constructor
        · rintro (rfl | ⟨hmem, -, hseen⟩)
          · exact ⟨Or.inl rfl, h⟩
          · exact ⟨Or.inr hmem, hseen⟩
        · rintro ⟨rfl | hmem, hseen⟩
          · exact Or.inl rfl
          · by_cases hva : value = a
            · exact Or.inl hva
            · exact Or.inr ⟨hmem, hva, hseen⟩

theorem normalizePlainCatalogValues_idempotent {values normalized : Option (List Text)}
    (h : normalizePlainCatalogValues values = some normalized) :
    normalizePlainCatalogValues normalized = some normalized := by
  cases values with
  | none =>
      cases h
      rfl
  | some values =>
      unfold normalizePlainCatalogValues at h
      simp only at h
      split at h
      · exact absurd h (by simp)
      · rename_i hok
        cases h
        have hsub := dedupFirst_sublist values []
        have hok' : ¬ (maxNotesSnippetsListValues < (dedupFirst [] values).length ∨
            (dedupFirst [] values).any (maxSmallTextBytes < utf8Len ·)) := by
          rw [not_or] at hok ⊢
          refine ⟨fun hlt => hok.1 (lt_of_lt_of_le hlt hsub.length_le), fun hany => hok.2 ?_⟩
          obtain ⟨value, hmem, hlt⟩ := List.any_eq_true.mp hany
          exact List.any_eq_true.mpr ⟨value, hsub.subset hmem, hlt⟩
        simp only [normalizePlainCatalogValues, hok', if_false, dedupFirst_idempotent]

theorem NotesSnippetsParts.normalize_eq_some {parts catalog : NotesSnippetsParts}
    (h : parts.normalize = some catalog) :
    ∃ snippetPackages, normalizePlainCatalogValues parts.snippetPackages = some snippetPackages ∧
      catalog = { parts with snippetPackages := snippetPackages } ∧ parts.Bounded ∧
      catalog.textBytes ≤ maxNotesSnippetsTextBytes := by
  unfold normalize at h
  split at h
  · exact absurd h (by simp)
  · rename_i snippetPackages hpackages
    simp only at h
    split at h
    · rename_i hok
      cases h
      exact ⟨snippetPackages, hpackages, rfl, hok.1, hok.2⟩
    · exact absurd h (by simp)

theorem NotesSnippetsParts.Bounded.setPackages {parts : NotesSnippetsParts} (h : parts.Bounded)
    (snippetPackages : Option (List Text)) :
    NotesSnippetsParts.Bounded { parts with snippetPackages := snippetPackages } :=
  ⟨h.snippets, h.notes, h.nodup_snippets, h.nodup_notes, h.noteGroups⟩

/-- **Normalizing the parts of a catalog twice is normalizing them once.** -/
theorem NotesSnippetsParts.normalize_idempotent {parts catalog : NotesSnippetsParts}
    (h : parts.normalize = some catalog) : catalog.normalize = some catalog := by
  obtain ⟨snippetPackages, hpackages, rfl, hbounded, htext⟩ := normalize_eq_some h
  simp only [normalize, normalizePlainCatalogValues_idempotent hpackages]
  exact if_pos ⟨hbounded.setPackages _, htext⟩

/-- A notes and snippets catalog; its parts are normalized. -/
structure SavedNotesSnippetsCatalog where
  parts : NotesSnippetsParts
  normalized : parts.normalize = some parts
  deriving DecidableEq

def SavedNotesSnippetsCatalog.absent : SavedNotesSnippetsCatalog := ⟨.absent, by decide⟩

def SavedNotesSnippetsCatalog.isAbsent (catalog : SavedNotesSnippetsCatalog) : Bool :=
  catalog.parts = .absent

def SavedNotesSnippetsCatalog.fromNormalizedParts (parts : NotesSnippetsParts) :
    Option SavedNotesSnippetsCatalog :=
  match h : parts.normalize with
  | some catalog => some ⟨catalog, NotesSnippetsParts.normalize_idempotent h⟩
  | none => none

theorem SavedNotesSnippetsCatalog.fromNormalizedParts_parts (catalog : SavedNotesSnippetsCatalog) :
    fromNormalizedParts catalog.parts = some catalog := by
  unfold fromNormalizedParts
  split
  · rename_i parts h
    rw [catalog.normalized] at h
    cases h
    rfl
  · rename_i h
    rw [catalog.normalized] at h
    exact absurd h (by simp)

theorem SavedNotesSnippetsCatalog.bounded (catalog : SavedNotesSnippetsCatalog) :
    catalog.parts.Bounded := by
  obtain ⟨-, -, -, hbounded, -⟩ := NotesSnippetsParts.normalize_eq_some catalog.normalized
  exact hbounded

/-! ### Port-forward rules -/

inductive SavedPortForwardKind
  | «local»
  | remote
  | dynamic
  deriving DecidableEq

structure SavedPortForwardRule where
  id : Text
  label : Text
  kind : SavedPortForwardKind
  localPort : ℕ
  bindAddress : Text
  remoteHost : Option Text
  remotePort : Option ℕ
  hostId : SavedHostId
  autoStart : Bool
  createdAt : ℕ
  lastUsedAt : Option ℕ
  order : Option ℤ
  deriving DecidableEq

inductive SavedPortForwardRuleError
  | invalidRule | catalogTooLarge | duplicateRule | hostUnavailable | hostUnsupported
  deriving DecidableEq, Repr

def maxSavedPortForwardRules : ℕ := 10000
def maxRuleIdBytes : ℕ := 256
def maxRuleLabelBytes : ℕ := 512
def maxBindAddressBytes : ℕ := 1024
def maxRemoteHostBytes : ℕ := 1024

def normalizeRequiredText (value : Text) (maxBytes : ℕ) (rejectWhitespace : Bool) :
    Except SavedPortForwardRuleError Text :=
  let value := trim value
  if value.isEmpty || maxBytes < utf8Len value || value.any isControl ||
      (rejectWhitespace && value.any isWhitespace) then .error .invalidRule
  else .ok value

/-- The remote end of a rule: a dynamic rule has none, the others need one. -/
def SavedPortForwardKind.normalizeRemote (kind : SavedPortForwardKind) (remoteHost : Option Text)
    (remotePort : Option ℕ) : Except SavedPortForwardRuleError (Option Text × Option ℕ) :=
  match kind with
  | .dynamic =>
    if remoteHost.any (fun host => !(trim host).isEmpty) || remotePort.isSome then .error .invalidRule
    else .ok (none, none)
  | .local | .remote =>
    match remoteHost, remotePort with
    | some host, some port => do
      let host ← normalizeRequiredText host maxRemoteHostBytes false
      if port = 0 then .error .invalidRule else .ok (some host, some port)
    | _, _ => .error .invalidRule

def SavedPortForwardRule.normalized (rule : SavedPortForwardRule) :
    Except SavedPortForwardRuleError SavedPortForwardRule := do
  let id ← normalizeRequiredText rule.id maxRuleIdBytes false
  let label ← normalizeRequiredText rule.label maxRuleLabelBytes false
  let bindAddress ← normalizeRequiredText rule.bindAddress maxBindAddressBytes true
  let hostId ← normalizeRequiredText rule.hostId maxRuleIdBytes false
  if !isOpaqueId hostId then .error .invalidRule
  if rule.localPort = 0 then .error .invalidRule
  let (remoteHost, remotePort) ← rule.kind.normalizeRemote rule.remoteHost rule.remotePort
  return { rule with id, label, bindAddress, hostId, remoteHost, remotePort }

theorem normalizeRequiredText_idempotent {value text : Text} {maxBytes : ℕ}
    {rejectWhitespace : Bool} (h : normalizeRequiredText value maxBytes rejectWhitespace = .ok text) :
    normalizeRequiredText text maxBytes rejectWhitespace = .ok text := by
  unfold normalizeRequiredText at h ⊢
  simp only at h ⊢
  split at h
  · exact absurd h (by simp)
  · rename_i hok
    cases h
    rw [Serial.trim_trim, if_neg hok]

theorem SavedPortForwardKind.normalizeRemote_idempotent {kind : SavedPortForwardKind}
    {remoteHost host : Option Text} {remotePort port : Option ℕ}
    (h : kind.normalizeRemote remoteHost remotePort = .ok (host, port)) :
    kind.normalizeRemote host port = .ok (host, port) := by
  cases kind with
  | dynamic =>
      simp only [normalizeRemote] at h ⊢
      split at h
      · exact absurd h (by simp)
      · cases h
        rfl
  | «local» | remote =>
      cases remoteHost with
      | none => simp [normalizeRemote] at h
      | some oldHost =>
          cases remotePort with
          | none => simp [normalizeRemote] at h
          | some oldPort =>
              simp only [normalizeRemote, bind_ok_iff] at h
              obtain ⟨text, htext, h⟩ := h
              split at h
              · exact absurd h (by simp)
              · rename_i hport
                cases h
                simp [normalizeRemote, normalizeRequiredText_idempotent htext, hport, bind,
                  Except.bind]

/-- **A rule in normal form is its own normal form.** -/
theorem SavedPortForwardRule.normalized_idempotent {rule normal : SavedPortForwardRule}
    (h : rule.normalized = .ok normal) : normal.normalized = .ok normal := by
  simp only [normalized, bind_ok_iff, refuse_ok_iff, pure_ok_iff] at h
  obtain ⟨id, hid, label, hlabel, bindAddress, hbind, hostId, hhost, hopaque, hport,
    ⟨remoteHost, remotePort⟩, hremote, rfl⟩ := h
  simp only [normalized, bind_ok_iff, refuse_ok_iff, pure_ok_iff]
  exact ⟨id, normalizeRequiredText_idempotent hid, label, normalizeRequiredText_idempotent hlabel,
    bindAddress, normalizeRequiredText_idempotent hbind, hostId,
    normalizeRequiredText_idempotent hhost, hopaque, hport, (remoteHost, remotePort),
    SavedPortForwardKind.normalizeRemote_idempotent hremote, rfl⟩

/-- The loop of `normalize_and_validate_port_forward_rules`, with the rule ids seen so far. -/
def normalizeRules (hosts : List SavedHost) :
    List Text → List SavedPortForwardRule →
      Except SavedPortForwardRuleError (List SavedPortForwardRule)
  | _, [] => .ok []
  | seen, rule :: rules => do
    let rule ← rule.normalized
    if rule.id ∈ seen then .error .duplicateRule
    match hosts.find? (·.id = rule.hostId) with
    | none => .error .hostUnavailable
    | some host =>
      if host.protocol.isSsh then
        let rules ← normalizeRules hosts (rule.id :: seen) rules
        return rule :: rules
      else .error .hostUnsupported

def normalizeAndValidatePortForwardRules (rules : List SavedPortForwardRule)
    (hosts : List SavedHost) : Except SavedPortForwardRuleError (List SavedPortForwardRule) :=
  if maxSavedPortForwardRules < rules.length then .error .catalogTooLarge
  else normalizeRules hosts [] rules

/-- Rules are kept by their order, then their age; a rule without an order comes first. -/
def SavedPortForwardRule.cmp : SavedPortForwardRule → SavedPortForwardRule → Ordering :=
  compareLex (compareOn fun rule => rule.order.toList) <|
  compareLex (compareOn (·.createdAt)) (compareOn (·.id))

instance : Std.TransCmp SavedPortForwardRule.cmp := by
  unfold SavedPortForwardRule.cmp
  infer_instance

/-! ### Known hosts -/

structure SavedKnownHost where
  id : Text
  hostname : Text
  port : ℕ
  keyType : Text
  publicKey : Text
  fingerprint : Option Text
  discoveredAt : ℕ
  lastSeen : Option ℕ
  convertedToHostId : Option Text
  order : Option ℤ
  deriving DecidableEq

inductive SavedKnownHostError
  | invalidRecord | duplicateId | catalogTooLarge
  deriving DecidableEq, Repr

def maxSavedKnownHosts : ℕ := 10000

def isBounded (value : Text) (maxBytes : ℕ) : Bool :=
  !(value.isEmpty || maxBytes < utf8Len value || value.any isControl)

def SavedKnownHost.validate (host : SavedKnownHost) : Except SavedKnownHostError Unit :=
  if isBounded host.id 512 && isBounded host.hostname 1024 && isBounded host.keyType 128 &&
      isBounded host.publicKey (16 * 1024) && host.port ≠ 0 && host.discoveredAt ≠ 0 &&
      host.fingerprint.all (isBounded · 512) && host.convertedToHostId.all (isBounded · 512) then
    .ok ()
  else .error .invalidRecord

def validateSavedKnownHosts (hosts : List SavedKnownHost) : Except SavedKnownHostError Unit := do
  if maxSavedKnownHosts < hosts.length then .error .catalogTooLarge
  let _ ← checkUnique SavedKnownHost.validate (·.id) (fun _ => .duplicateId) [] hosts

/-! ### Connection logs -/

/-- A connection log; `settings` keeps the fields that no rule looks at. -/
structure SavedConnectionLog where
  id : Text
  sessionId : Option Text
  hostId : Text
  hostLabel : Text
  hostname : Text
  username : Text
  isLocal : Bool
  hostDistro : Option Text
  hostIconColorCustom : Option Text
  startTime : ℕ
  endTime : Option ℕ
  localUsername : Text
  localHostname : Text
  saved : Bool
  themeId : Option Text
  fontSize : Option ℚ
  settings : Value
  deriving DecidableEq

inductive SavedConnectionLogError
  | invalidRecord | duplicateId | catalogTooLarge | tooManyUnsaved | catalogTextTooLarge
  deriving DecidableEq, Repr

def maxUnsavedConnectionLogs : ℕ := 500
def maxConnectionLogRecords : ℕ := 10000
def maxConnectionLogTextBytes : ℕ := 32 * 1024 * 1024

def SavedConnectionLog.validate (log : SavedConnectionLog) : Except SavedConnectionLogError Unit :=
  if isBounded log.id 512 && log.sessionId.all (isBounded · 512) &&
      ((log.isLocal && log.hostId.isEmpty) || isBounded log.hostId 512) &&
      isBounded log.hostLabel 4096 && isBounded log.hostname 4096 && isBounded log.username 4096 &&
      log.hostDistro.all (isBounded · 512) && log.hostIconColorCustom.all (isBounded · 512) &&
      isBounded log.localUsername 4096 && isBounded log.localHostname 4096 &&
      log.themeId.all (isBounded · 512) && log.startTime ≠ 0 &&
      log.endTime.all (log.startTime ≤ ·) &&
      log.fontSize.all (fun size => (4 ≤ size ∧ size ≤ 256 : Bool)) then
    .ok ()
  else .error .invalidRecord

def SavedConnectionLog.textBytes (log : SavedConnectionLog) : ℕ :=
  utf8Len log.id + Vault.textBytes log.sessionId + utf8Len log.hostId + utf8Len log.hostLabel +
    utf8Len log.hostname + utf8Len log.username + Vault.textBytes log.hostDistro +
    Vault.textBytes log.hostIconColorCustom + utf8Len log.localUsername +
    utf8Len log.localHostname + Vault.textBytes log.themeId

/-- The loop of `validate_saved_connection_logs`: ids seen, transient records, bytes of text. -/
def validateLogs : List Text → ℕ → ℕ → List SavedConnectionLog → Except SavedConnectionLogError Unit
  | _, _, _, [] => .ok ()
  | seen, unsaved, bytes, log :: logs => do
    log.validate
    if log.id ∈ seen then .error .duplicateId
    let unsaved := if log.saved then unsaved else unsaved + 1
    if maxUnsavedConnectionLogs < unsaved then .error .tooManyUnsaved
    let bytes := bytes + log.textBytes
    if maxConnectionLogTextBytes < bytes then .error .catalogTextTooLarge
    validateLogs (log.id :: seen) unsaved bytes logs

def validateSavedConnectionLogs (logs : List SavedConnectionLog) :
    Except SavedConnectionLogError Unit := do
  if maxConnectionLogRecords < logs.length then .error .catalogTooLarge
  validateLogs [] 0 0 logs

theorem validateLogs_ok_iff {seen : List Text} {unsaved bytes : ℕ} {logs : List SavedConnectionLog}
    (hunsaved : unsaved ≤ maxUnsavedConnectionLogs) (hbytes : bytes ≤ maxConnectionLogTextBytes) :
    validateLogs seen unsaved bytes logs = .ok () ↔
      (∀ log ∈ logs, log.validate = .ok ()) ∧ (logs.map (·.id)).Nodup ∧
        (∀ log ∈ logs, log.id ∉ seen) ∧
        unsaved + logs.countP (!·.saved) ≤ maxUnsavedConnectionLogs ∧
        bytes + (logs.map (·.textBytes)).sum ≤ maxConnectionLogTextBytes := by
  induction logs generalizing seen unsaved bytes with
  | nil => simp [validateLogs, hunsaved, hbytes]
  | cons log logs ih =>
      rw [validateLogs, check_ok_iff]
      simp only [refuse_ok_iff, not_lt, List.mem_cons, forall_eq_or_imp, List.map_cons,
        List.nodup_cons, List.mem_map, not_exists, not_and, List.countP_cons, List.sum_cons]
      have hcount : (if log.saved = true then unsaved else unsaved + 1) =
          unsaved + if (!log.saved) = true then 1 else 0 := by
        cases log.saved <;> rfl
      rw [hcount]
      constructor
      · rintro ⟨hvalid, hseen, hunsaved, hbytes, h⟩
        obtain ⟨hvalids, hnodup, hnew, hcounts, hsum⟩ := (ih hunsaved hbytes).mp h
        refine ⟨⟨hvalid, hvalids⟩, ⟨fun other hother heq => ?_, hnodup⟩,
          ⟨hseen, fun other hother hmem => ?_⟩, by omega, by omega⟩
        · exact hnew other hother (List.mem_cons.mpr (Or.inl heq))
        · exact hnew other hother (List.mem_cons_of_mem _ hmem)
      · rintro ⟨⟨hvalid, hvalids⟩, ⟨hne, hnodup⟩, ⟨hseen, hnew⟩, hcounts, hsum⟩
        refine ⟨hvalid, hseen, by omega, by omega, (ih (by omega) (by omega)).mpr
          ⟨hvalids, hnodup, fun other hother hmem => ?_, by omega, by omega⟩⟩
        rcases List.mem_cons.mp hmem with heq | hmem
        · exact hne other hother heq
        · exact hnew other hother hmem

theorem validateSavedConnectionLogs_ok_iff {logs : List SavedConnectionLog} :
    validateSavedConnectionLogs logs = .ok () ↔
      logs.length ≤ maxConnectionLogRecords ∧ (∀ log ∈ logs, log.validate = .ok ()) ∧
        (logs.map (·.id)).Nodup ∧ logs.countP (!·.saved) ≤ maxUnsavedConnectionLogs ∧
        (logs.map (·.textBytes)).sum ≤ maxConnectionLogTextBytes := by
  rw [validateSavedConnectionLogs, refuse_ok_iff, not_lt,
    validateLogs_ok_iff (Nat.zero_le _) (Nat.zero_le _)]
  simp

theorem validateSavedConnectionLogs_perm {logs logs' : List SavedConnectionLog}
    (hp : logs.Perm logs') :
    validateSavedConnectionLogs logs = .ok () ↔ validateSavedConnectionLogs logs' = .ok () := by
  rw [validateSavedConnectionLogs_ok_iff, validateSavedConnectionLogs_ok_iff, hp.length_eq,
    (hp.map (·.id)).nodup_iff, hp.countP_eq, (hp.map (·.textBytes)).sum_nat]
  simp only [hp.mem_iff]

/-- Logs are kept newest first. -/
def SavedConnectionLog.cmp : SavedConnectionLog → SavedConnectionLog → Ordering :=
  compareLex (fun left right => compare right.startTime left.startTime) (compareOn (·.id))

instance : Std.TransCmp SavedConnectionLog.cmp := by
  have : Std.TransCmp fun left right : SavedConnectionLog =>
      compare right.startTime left.startTime :=
    @Std.TransCmp.opposite _ (compareOn SavedConnectionLog.startTime) _
  unfold SavedConnectionLog.cmp
  infer_instance

def SavedConnectionLog.newestFirst : SavedConnectionLog → SavedConnectionLog → Ordering :=
  fun left right => compare right.startTime left.startTime

/-- Every bookmarked log, and the newest transient ones up to the limit, newest first. -/
def withLegacyRetention (logs : List SavedConnectionLog) :
    Except SavedConnectionLogError (List SavedConnectionLog) := do
  let saved := logs.filter (·.saved)
  let unsaved := (sortBy SavedConnectionLog.newestFirst (logs.filter (!·.saved))).take
    maxUnsavedConnectionLogs
  let kept := sortBy SavedConnectionLog.newestFirst (saved ++ unsaved)
  validateSavedConnectionLogs kept
  return kept

end Netcatty.Vault
