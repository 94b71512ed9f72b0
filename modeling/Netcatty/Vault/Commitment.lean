import Netcatty.Vault.Snapshot

/-! # Graph commitments

A commitment is a digest of all catalogs of an inventory, in the oldest of ten payload formats that
holds those in use.  The first format knows neither managed keys nor the authentication method of an
identity.  Two valid inventories with one commitment have all catalogs in common, except for the
letter case of a method that the first format leaves out (`sameUpToAuthCase_of_commitment_eq`). -/

namespace Netcatty.Vault

open Catalog

/-! ### Payloads -/

/-- The format of a commitment. -/
def Inventory.commitmentVersion (inventory : Inventory) : ℕ :=
  if inventory.customGroups.isSome then 10
  else if !inventory.connectionLogs.isEmpty then 9
  else if !inventory.knownHosts.isEmpty then 8
  else if !inventory.portForwardRules.isEmpty then 7
  else if !inventory.notesSnippets.isAbsent then 6
  else if !inventory.groups.isEmpty then 5
  else if !inventory.proxyProfiles.isEmpty then 4
  else if !inventory.passwordIdentities.isEmpty then 3
  else if inventory.managedSshKeys.isEmpty then 1
  else 2

def CatalogPayload.forCommitment (version : ℕ) (inventory : Inventory) : CatalogPayload where
  hosts := inventory.hosts
  sshKeyReferences := some inventory.sshKeyReferences
  managedSshKeys := since version 2 inventory.managedSshKeys
  legacyIdentityReferences :=
    if version = 1 then some (Vault.legacyIdentityReferences inventory.identityReferences) else none
  identityReferences := since version 2 inventory.identityReferences
  passwordIdentities := since version 3 inventory.passwordIdentities
  proxyProfiles := since version 4 inventory.proxyProfiles
  groups := since version 5 inventory.groups
  customGroups := if 10 ≤ version then inventory.customGroups else none
  notesSnippets := since version 6 inventory.notesSnippets
  portForwardRules := since version 7 inventory.portForwardRules
  knownHosts := since version 8 inventory.knownHosts
  connectionLogs := since version 9 inventory.connectionLogs

def GraphCommitmentPayload.of (storeId : Text) (inventory : Inventory) :
    GraphCommitmentPayload where
  formatVersion := inventory.commitmentVersion
  storeId := storeId
  catalogs := .forCommitment inventory.commitmentVersion inventory

def commitmentDomain (version : ℕ) : Bytes :=
  textBytesOf ("netcatty-saved-vault-graph-commitment-v" ++ toString version ++ "\x00")

abbrev SavedVaultGraphCommitment := Bytes

def graphCommitment (S : Serde) (storeId : Text) (inventory : Inventory) :
    Except StoreError SavedVaultGraphCommitment := do
  let payload := GraphCommitmentPayload.of storeId inventory
  let encoded ← liftOption .serialization (S.commitmentToVec payload)
  return S.sha256
    (commitmentDomain payload.formatVersion ++ toBeBytes encoded.length ++ encoded)

/-! ### The format and the catalogs that it leaves out -/

theorem mem_ite {p : Prop} [Decidable p] {a b : ℕ} {l : List ℕ} (ha : a ∈ l) (hb : b ∈ l) :
    (if p then a else b) ∈ l := by
  split <;> assumption

theorem le_ite {p : Prop} [Decidable p] {k a b : ℕ} (ha : k ≤ a) (hb : k ≤ b) :
    k ≤ if p then a else b := by
  split <;> assumption

theorem commitmentVersion_mem (inventory : Inventory) :
    inventory.commitmentVersion ∈ List.range' 1 10 := by
  unfold Inventory.commitmentVersion
  repeat' apply mem_ite
  all_goals decide

/-- A catalog that the format leaves out is empty. -/
structure LeavesOutEmpty (version : ℕ) (inventory : Inventory) : Prop where
  managedSshKeys : version < 2 → inventory.managedSshKeys = []
  passwordIdentities : version < 3 → inventory.passwordIdentities = []
  proxyProfiles : version < 4 → inventory.proxyProfiles = []
  groups : version < 5 → inventory.groups = []
  notesSnippets : version < 6 → inventory.notesSnippets = .absent
  portForwardRules : version < 7 → inventory.portForwardRules = []
  knownHosts : version < 8 → inventory.knownHosts = []
  connectionLogs : version < 9 → inventory.connectionLogs = []
  customGroups : version < 10 → inventory.customGroups = none

theorem isAbsent_iff {catalog : SavedNotesSnippetsCatalog} :
    catalog.isAbsent = true ↔ catalog = .absent := by
  obtain ⟨parts, h⟩ := catalog
  simp [SavedNotesSnippetsCatalog.isAbsent, SavedNotesSnippetsCatalog.absent]

theorem isAbsent_eq_false_iff {catalog : SavedNotesSnippetsCatalog} :
    catalog.isAbsent = false ↔ catalog ≠ .absent := by
  rw [← Bool.not_eq_true, isAbsent_iff]

theorem leavesOutEmpty (inventory : Inventory) :
    LeavesOutEmpty inventory.commitmentVersion inventory := by
  constructor
  all_goals
    intro h
    by_contra hne
    refine absurd h (not_lt.mpr ?_)
    unfold Inventory.commitmentVersion
    -- the formats before that of the catalog are newer, and so is the last one where none is in use
    repeat first
      | exact (if_pos (by simpa [isAbsent_eq_false_iff, Option.isSome_iff_ne_none] using hne)).ge
      | refine le_ite (by decide) ?_
      | exact (if_neg (by simpa using hne)).ge

/-! ### Injectivity of the digest -/

/-- The end of a domain, with the number of the format. -/
def domainSuffix (version : ℕ) : Bytes := textBytesOf (toString version ++ "\x00")

theorem commitmentDomain_eq (version : ℕ) :
    commitmentDomain version =
      textBytesOf "netcatty-saved-vault-graph-commitment-v" ++ domainSuffix version := by
  simp only [commitmentDomain, domainSuffix, textBytesOf, String.toList_append, List.map_append,
    List.append_assoc]

theorem eq_of_domain_append {v w : ℕ} (hv : v ∈ List.range' 1 10) (hw : w ∈ List.range' 1 10)
    {x y : Bytes} (h : commitmentDomain v ++ x = commitmentDomain w ++ y) : v = w := by
  have hdisjoint : ∀ v ∈ List.range' 1 10, ∀ w ∈ List.range' 1 10,
      (domainSuffix v).isPrefixOf (domainSuffix w) = true → v = w := by
    decide
  rw [commitmentDomain_eq, commitmentDomain_eq, List.append_assoc, List.append_assoc,
    List.append_cancel_left_eq] at h
  have hbegins : domainSuffix v <+: domainSuffix w ++ y := ⟨x, h⟩
  have hbegins' : domainSuffix w <+: domainSuffix w ++ y := ⟨y, rfl⟩
  rcases List.prefix_or_prefix_of_prefix hbegins hbegins' with hpre | hpre
  · exact hdisjoint v hv w hw (List.isPrefixOf_iff_prefix.mpr hpre)
  · exact (hdisjoint w hw v hv (List.isPrefixOf_iff_prefix.mpr hpre)).symm

/-- **Equal commitments are commitments of one payload**, where the digest has no collision and
JSON tells payloads apart. -/
theorem payload_eq {S : Serde} (hsha : Function.Injective S.sha256)
    (hjson : ∀ p q encoded, S.commitmentToVec p = some encoded →
      S.commitmentToVec q = some encoded → p = q)
    {storeId : Text} {left right : Inventory} {commitment : SavedVaultGraphCommitment}
    (hleft : graphCommitment S storeId left = .ok commitment)
    (hright : graphCommitment S storeId right = .ok commitment) :
    GraphCommitmentPayload.of storeId left = GraphCommitmentPayload.of storeId right := by
  obtain ⟨encoded, hencoded, hl⟩ := bind_ok_iff.mp hleft
  obtain ⟨encoded', hencoded', hr⟩ := bind_ok_iff.mp hright
  have heq := hsha ((pure_ok_iff.mp hl).symm.trans (pure_ok_iff.mp hr))
  simp only [List.append_assoc] at heq
  have hversion := eq_of_domain_append (commitmentVersion_mem left) (commitmentVersion_mem right)
    heq
  have hbody := (List.append_inj heq (by
    simp only [GraphCommitmentPayload.of, hversion])).2
  have hencodings := (List.append_inj hbody (by simp [toBeBytes])).2
  subst hencodings
  exact hjson _ _ _ (liftOption_ok_iff.mp hencoded) (liftOption_ok_iff.mp hencoded')

/-! ### What a commitment determines -/

/-- The same catalogs, where the authentication methods of two identities may differ in the case of
their letters. -/
structure SameUpToAuthCase (left right : Inventory) : Prop where
  others : { left with identityReferences := right.identityReferences } = right
  identities : List.Forall₂ (fun l r : SavedIdentityReference =>
    l.legacy = r.legacy ∧ eqIgnoreAsciiCase l.authMethod.value r.authMethod.value)
    left.identityReferences right.identityReferences

theorem eqIgnoreAsciiCase_refl (s : Text) : eqIgnoreAsciiCase s s := by simp [eqIgnoreAsciiCase]

theorem eqIgnoreAsciiCase_trans {s t u : Text} (h : eqIgnoreAsciiCase s t)
    (h' : eqIgnoreAsciiCase u t) : eqIgnoreAsciiCase s u := by
  simp only [eqIgnoreAsciiCase, beq_iff_eq] at *
  rw [h, h']

/-- Without managed keys, every identity of a valid inventory uses a key. -/
theorem isKey_of_no_managed {E : Externals} {inventory : Inventory} (h : inventory.Checked E)
    (hmanaged : inventory.managedSshKeys = []) :
    ∀ identity ∈ inventory.identityReferences, identity.authMethod.isKey = true := by
  intro identity hidentity
  have hvalid := h.records.identityReferences identity hidentity
  have hkey := h.references.identities identity hidentity
  by_contra hnot
  have hcert : identity.authMethod.isCertificate = true := by
    simp only [SavedIdentityReference.validate, check_ok_iff, refuse_ok_iff] at hvalid
    obtain ⟨-, -, -, -, -, hmethod, -⟩ := hvalid
    rw [Bool.not_eq_true] at hnot
    simpa [hnot] using hmethod
  rw [validateIdentityKeyReference, if_pos hcert] at hkey
  simp only [SavedVaultGraph.lookups, GraphLookups.of, hmanaged, lookupBy_nil, Option.map_none]
    at hkey
  split at hkey <;> exact absurd hkey (by simp)

theorem eq_of_since {α : Type} {version first : ℕ} {x y default : α}
    (h : since version first x = since version first y) (hx : version < first → x = default)
    (hy : version < first → y = default) : x = y := by
  unfold since at h
  split_ifs at h with hversion
  · exact Option.some.inj h
  · rw [hx (not_le.mp hversion), hy (not_le.mp hversion)]

theorem Inventory.ext' {left right : Inventory} (h₁ : left.hosts = right.hosts)
    (h₂ : left.sshKeyReferences = right.sshKeyReferences)
    (h₃ : left.managedSshKeys = right.managedSshKeys)
    (h₄ : left.identityReferences = right.identityReferences)
    (h₅ : left.passwordIdentities = right.passwordIdentities)
    (h₆ : left.proxyProfiles = right.proxyProfiles) (h₇ : left.groups = right.groups)
    (h₈ : left.customGroups = right.customGroups) (h₉ : left.notesSnippets = right.notesSnippets)
    (h₁₀ : left.portForwardRules = right.portForwardRules)
    (h₁₁ : left.knownHosts = right.knownHosts)
    (h₁₂ : left.connectionLogs = right.connectionLogs) : left = right := by
  obtain ⟨⟨_, _, _, _, _, _, _, _, _, _⟩, _, _⟩ := left
  obtain ⟨⟨_, _, _, _, _, _, _, _, _, _⟩, _, _⟩ := right
  simp only at h₁ h₂ h₃ h₄ h₅ h₆ h₇ h₈ h₉ h₁₀ h₁₁ h₁₂
  subst h₁ h₂ h₃ h₄ h₅ h₆ h₇ h₈ h₉ h₁₀ h₁₁ h₁₂
  rfl

theorem forall₂_of_legacy_eq {left right : List SavedIdentityReference}
    (h : left.map (·.legacy) = right.map (·.legacy))
    (hl : ∀ identity ∈ left, identity.authMethod.isKey = true)
    (hr : ∀ identity ∈ right, identity.authMethod.isKey = true) :
    List.Forall₂ (fun l r : SavedIdentityReference =>
      l.legacy = r.legacy ∧ eqIgnoreAsciiCase l.authMethod.value r.authMethod.value)
      left right := by
  induction left generalizing right with
  | nil =>
      rw [List.map_nil, eq_comm, List.map_eq_nil_iff] at h
      rw [h]
      exact .nil
  | cons l left ih =>
      cases right with
      | nil => simp at h
      | cons r right =>
          rw [List.map_cons, List.map_cons, List.cons.injEq] at h
          refine .cons ⟨h.1, eqIgnoreAsciiCase_trans (hl l List.mem_cons_self)
            (hr r List.mem_cons_self)⟩ (ih h.2 (fun i hi => hl i (List.mem_cons_of_mem _ hi))
              fun i hi => hr i (List.mem_cons_of_mem _ hi))

/-- **What equal commitments determine.**  Two valid inventories with the same commitment have the
same catalogs, up to the letter case of authentication methods. -/
theorem sameUpToAuthCase_of_commitment_eq {E : Externals} {S : Serde}
    (hsha : Function.Injective S.sha256)
    (hjson : ∀ p q encoded, S.commitmentToVec p = some encoded →
      S.commitmentToVec q = some encoded → p = q)
    {storeId : Text} {left right : Inventory} {commitment : SavedVaultGraphCommitment}
    (hl : left.Checked E) (hr : right.Checked E)
    (hleft : graphCommitment S storeId left = .ok commitment)
    (hright : graphCommitment S storeId right = .ok commitment) :
    SameUpToAuthCase left right := by
  have hpayload := payload_eq hsha hjson hleft hright
  obtain ⟨hversion, -, hcatalogs⟩ := GraphCommitmentPayload.mk.inj hpayload
  have hleftEmpty := leavesOutEmpty left
  have hrightEmpty := leavesOutEmpty right
  rw [hversion] at hcatalogs hleftEmpty
  have hmem := commitmentVersion_mem right
  generalize right.commitmentVersion = version at hcatalogs hleftEmpty hrightEmpty hmem
  obtain ⟨hhosts, hrefs, hmanaged, hlegacy, hids, hpasswords, hproxies, hgroups, hcustom, hnotes,
    hrules, hknown, hlogs⟩ := CatalogPayload.mk.inj hcatalogs
  have hmanagedEq := eq_of_since hmanaged hleftEmpty.managedSshKeys hrightEmpty.managedSshKeys
  have hcustomEq : left.customGroups = right.customGroups := by
    split_ifs at hcustom with h10
    · exact hcustom
    · rw [hleftEmpty.customGroups (not_le.mp h10), hrightEmpty.customGroups (not_le.mp h10)]
  constructor
  · exact Inventory.ext' hhosts (Option.some.inj hrefs) hmanagedEq rfl
      (eq_of_since hpasswords hleftEmpty.passwordIdentities hrightEmpty.passwordIdentities)
      (eq_of_since hproxies hleftEmpty.proxyProfiles hrightEmpty.proxyProfiles)
      (eq_of_since hgroups hleftEmpty.groups hrightEmpty.groups) hcustomEq
      (eq_of_since hnotes hleftEmpty.notesSnippets hrightEmpty.notesSnippets)
      (eq_of_since hrules hleftEmpty.portForwardRules hrightEmpty.portForwardRules)
      (eq_of_since hknown hleftEmpty.knownHosts hrightEmpty.knownHosts)
      (eq_of_since hlogs hleftEmpty.connectionLogs hrightEmpty.connectionLogs)
  · by_cases h2 : 2 ≤ version
    · simp only [since, h2, if_true, Option.some.injEq] at hids
      rw [hids, List.forall₂_same]
      exact fun identity _ => ⟨rfl, eqIgnoreAsciiCase_refl _⟩
    · obtain rfl : version = 1 := by
        have := List.mem_range'_1.mp hmem
        omega
      simp only [if_true, Option.some.injEq, legacyIdentityReferences] at hlegacy
      have hkeyLeft := isKey_of_no_managed hl (hleftEmpty.managedSshKeys (by decide))
      have hkeyRight := isKey_of_no_managed hr (hrightEmpty.managedSshKeys (by decide))
      exact forall₂_of_legacy_eq hlegacy hkeyLeft hkeyRight

end Netcatty.Vault
