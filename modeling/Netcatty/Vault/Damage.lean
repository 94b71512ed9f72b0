import Netcatty.Vault.Recovery

/-! # Damage to the newest snapshot

The two slots are there so that the loss of one snapshot leaves the other.  Where a load has fallen
back to the older slot, though, the next generation can go into that same slot, and the cleanup
takes the snapshot that had been loaded: `damage_survived_iff` says exactly when a durable commit
leaves it in place. -/

namespace Netcatty.Vault

open Catalog Crash FileSystem

/-- One file is replaced by something that is no file. -/
def StoreFiles.ruin (files : StoreFiles) (slot : Slot) (name : Text) : StoreFiles :=
  files.setDirectory ((files.directory slot).insert name .irregular) slot

namespace SavedHostStore

variable {V : SavedHostStore}

/-- A snapshot file is lost, or its content has become unreadable. -/
structure Damaged (V : SavedHostStore) (slot : Slot) (name : Text) (generation : ℕ)
    (before after : StoreFiles) : Prop where
  unreadable : ∀ snapshot,
    V.readSnapshot (after.directory slot) slot name generation ≠ .ok snapshot
  others : ∀ other, other ≠ name →
    (after.directory slot).lookup other = (before.directory slot).lookup other
  otherSlot : ∀ slot', slot' ≠ slot → after.directory slot' = before.directory slot'

/-- Whatever happens to the snapshot of a generation, the loaded inventory is still there. -/
def Survives (V : SavedHostStore) (loaded : LoadedStore) (generation : ℕ) (files : StoreFiles) :
    Prop :=
  ∀ name damaged, name ∈ files.directory (Slot.forGeneration generation) →
    parseSnapshotName name = some generation →
    V.Damaged (Slot.forGeneration generation) name generation files damaged →
    ∃ maxSeen, V.loadLocked damaged = .ok ⟨loaded.generation, maxSeen, loaded.inventory⟩

theorem forGeneration_eq_iff {g g' : ℕ} :
    Slot.forGeneration g = Slot.forGeneration g' ↔ g % 2 = g' % 2 := by
  unfold Slot.forGeneration
  rcases Nat.mod_two_eq_zero_or_one g with h | h <;>
    rcases Nat.mod_two_eq_zero_or_one g' with h' | h' <;> simp [h, h']

theorem AgreeOnSnapshots.of_eq {d d' : SlotDirectory} (h : d' = d) : AgreeOnSnapshots d d' :=
  fun _ _ _ => by rw [h]

variable {files after damaged : StoreFiles} {slot : Slot} {snapshot : ValidatedSnapshot}
  {generation : ℕ} {encoded : Bytes} {name : Text}

theorem isRemovable_slot {d : SlotDirectory} {g : ℕ} (hparse : parseSnapshotName name = some g)
    (h : V.isRemovable slot generation name d = true) : Slot.forGeneration g = slot := by
  simp only [isRemovable, hparse, Bool.and_eq_true] at h
  cases hread : V.readSnapshot d slot name g with
  | error error => simp [hread, Except.isOk, Except.toBool] at h
  | ok read => exact (readSnapshot_ok hread).1

/-- Files of the other slot's generations stay where they are. -/
theorem CommittedIn.kept (hc : V.CommittedIn generation encoded files after) {g : ℕ}
    (hmem : name ∈ files.directory (Slot.forGeneration generation))
    (hparse : parseSnapshotName name = some g)
    (hg : Slot.forGeneration g ≠ Slot.forGeneration generation) :
    name ∈ after.directory (Slot.forGeneration generation) := by
  obtain ⟨id, hnew, -, hrest⟩ := hc.published
  have hne : name ≠ snapshotName generation id := by
    rintro rfl
    exact AList.lookup_eq_none.mp hnew hmem
  have htemp : isSnapshotTempName name = false := by
    cases htemp : isSnapshotTempName name with
    | false => rfl
    | true => simp [parse_eq_none_of_temp htemp] at hparse
  rcases hrest name htemp hne with hsame | ⟨-, hremovable⟩
  · exact (mem_of_lookup_eq hsame).mpr hmem
  · exact absurd (isRemovable_slot hparse hremovable) hg

/-- All but the new file were there before. -/
theorem CommittedIn.old (hc : V.CommittedIn generation encoded files after)
    (hgeneration : generation = files.maxGeneration + 1)
    (hname : parseSnapshotName name = some generation)
    (hmem : name ∈ after.directory (Slot.forGeneration generation)) {other : Text} {g : ℕ}
    (hother : other ≠ name) (hparse : parseSnapshotName other = some g)
    (hafter : other ∈ after.directory (Slot.forGeneration generation)) :
    g ≤ files.maxGeneration ∧ other ∈ files.directory (Slot.forGeneration generation) := by
  obtain ⟨id, -, hfiles⟩ := hc.lookup
  rcases hfiles _ other g hafter hparse with ⟨-, hid⟩ | ⟨hle, hbefore, -⟩
  · rcases hfiles _ name generation hmem hname with ⟨-, hid'⟩ | ⟨hle, -⟩
    · exact absurd (hid.trans hid'.symm) hother
    · omega
  · exact ⟨hle, hbefore⟩

theorem loadLocked_of_no_offer
    (h : ∀ slot, (V.probeSlot (files.directory slot) slot).snapshot = none)
    (hne : files.maxGeneration ≠ 0) : V.loadLocked files = .error .bothSlotsCorrupt := by
  have ha := h .a
  have hb := h .b
  simp only [StoreFiles.directory] at ha hb
  simp only [loadLocked, ha, hb]
  refine if_neg fun hempty => hne ?_
  rw [Bool.and_eq_true, probeSlot_empty_iff, probeSlot_empty_iff] at hempty
  simp [StoreFiles.maxGeneration, hempty]

/-- The commit leaves the slot of the loaded snapshot alone: nothing in its own slot can come before
that snapshot, once the new one is lost. -/
theorem Selected.of_damaged (hs : V.Selected files slot snapshot)
    (hc : V.CommittedIn generation encoded files after)
    (hgeneration : generation = files.maxGeneration + 1)
    (hparity : Slot.forGeneration files.maxGeneration = slot)
    (hname : parseSnapshotName name = some generation)
    (hmem : name ∈ after.directory (Slot.forGeneration generation))
    (hd : V.Damaged (Slot.forGeneration generation) name generation after damaged) :
    V.Selected damaged slot snapshot := by
  have hne : slot ≠ Slot.forGeneration generation := by
    rw [← hparity, ne_eq, forGeneration_eq_iff]
    omega
  have hkept : damaged.directory slot = files.directory slot := by
    rw [hd.otherSlot slot hne, hc.others slot hne]
  refine ⟨?_, fun offered hoffered => ?_⟩
  · rw [(AgreeOnSnapshots.of_eq hkept).snapshot_eq]
    exact hs.offer
  rw [← Slot.eq_other_of_ne hne.symm] at hoffered
  obtain ⟨read, g, hnewest, hread⟩ := probeSlot_snapshot hoffered
  obtain ⟨hgslot, hoffer, -⟩ := readSnapshot_ok hread
  rw [hoffer]
  have hreadNe : read ≠ name := by
    rintro rfl
    have hg := hnewest.parse
    rw [hname] at hg
    cases hg
    exact hd.unreadable _ hread
  have hreadMem : read ∈ files.directory (Slot.forGeneration generation) :=
    (hc.old hgeneration hname hmem hreadNe hnewest.parse
      ((mem_of_lookup_eq (hd.others read hreadNe)).mp hnewest.mem)).2
  have hle := le_maxGeneration hreadMem hnewest.parse
  refine lt_of_le_of_lt hle (not_le.mp fun hnewer => ?_)
  -- the newest generation of the slot is newer than the loaded one, and so the newest of all: it is
  -- a generation of the other slot, which the cleanup leaves where it is
  obtain ⟨loadedName, g₀, hloaded, hreadLoaded⟩ := probeSlot_snapshot hs.offer
  have hg₀ : snapshot.generation = g₀ := (readSnapshot_ok hreadLoaded).2.1
  have hpos := (parseSnapshotName_bounds hloaded.parse).1
  have hnewest' : maxGeneration (files.directory (Slot.forGeneration generation)) =
      files.maxGeneration := by
    refine le_antisymm (files.le_maxGeneration _) ?_
    obtain ⟨slot', heq⟩ := files.maxGeneration_eq
    rw [heq]
    by_cases hslot' : slot' = slot
    · rw [hslot', hloaded.maxGeneration_eq, ← hg₀]
      exact hnewer
    · rw [Slot.eq_other_of_ne hslot', ← Slot.eq_other_of_ne hne.symm]
  obtain ⟨newest, hnewestMem, hnewestParse⟩ := maxGeneration_mem
    (d := files.directory (Slot.forGeneration generation)) (by omega)
  rw [hnewest'] at hnewestParse hle
  have hnewestNe : newest ≠ name := by
    rintro rfl
    rw [hname] at hnewestParse
    cases hnewestParse
    omega
  have hkeptMem := hc.kept hnewestMem hnewestParse (hparity ▸ hne)
  have hdamagedMem := (mem_of_lookup_eq (hd.others newest hnewestNe)).mpr hkeptMem
  by_cases hsame : newest = read
  · have hg := hnewest.parse
    rw [← hsame, hnewestParse] at hg
    cases hg
    exact hne (hparity.symm.trans hgslot)
  · exact absurd (hnewest.lt newest hdamagedMem hsame _ hnewestParse) (not_lt.mpr hle)

theorem directory_ruin (files : StoreFiles) (slot : Slot) (name : Text) :
    (files.ruin slot name).directory slot = (files.directory slot).insert name .irregular :=
  directory_setDirectory _ _ _

theorem directory_ruin_of_ne (files : StoreFiles) {slot slot' : Slot} (name : Text)
    (h : slot' ≠ slot) : (files.ruin slot name).directory slot' = files.directory slot' :=
  directory_setDirectory_of_ne _ _ h

theorem readSnapshot_ruin (files : StoreFiles) (slot : Slot) (name : Text) (generation : ℕ)
    (snapshot : ValidatedSnapshot) :
    V.readSnapshot ((files.ruin slot name).directory slot) slot name generation ≠ .ok snapshot := by
  simp [directory_ruin, readSnapshot, readBounded, AList.lookup_insert]

theorem damaged_ruin (files : StoreFiles) (slot : Slot) (name : Text) (generation : ℕ) :
    V.Damaged slot name generation files (files.ruin slot name) := by
  refine ⟨readSnapshot_ruin files slot name generation, fun other hother => ?_,
    fun slot' hslot' => directory_ruin_of_ne files name hslot'⟩
  rw [directory_ruin, AList.lookup_insert_ne hother]

/-- The commit goes into the slot of the loaded snapshot: with the new one lost, no snapshot of
either slot can be read. -/
theorem Selected.not_survives (hs : V.Selected files slot snapshot)
    (hc : V.CommittedIn generation encoded files after)
    (hgeneration : generation = files.maxGeneration + 1)
    (hslot : Slot.forGeneration snapshot.generation = slot)
    (hparity : Slot.forGeneration files.maxGeneration ≠ slot)
    (hname : parseSnapshotName name = some generation)
    (hmem : name ∈ after.directory (Slot.forGeneration generation)) :
    ∃ damaged, V.Damaged (Slot.forGeneration generation) name generation after damaged ∧
      V.loadLocked damaged = .error .bothSlotsCorrupt := by
  have heq : Slot.forGeneration generation = slot := by
    by_contra hne
    have hother := (Slot.eq_other_of_ne hne).trans (Slot.eq_other_of_ne hparity).symm
    rw [forGeneration_eq_iff] at hother
    omega
  refine ⟨after.ruin slot name, ?_, ?_⟩
  · rw [heq]
    exact damaged_ruin after slot name generation
  have hunreadable := readSnapshot_ruin (V := V) after slot name generation
  rw [heq] at hmem
  refine loadLocked_of_no_offer (fun slot' => ?_) ?_
  · cases hoffer : (V.probeSlot ((after.ruin slot name).directory slot') slot').snapshot with
    | none => rfl
    | some offered =>
        obtain ⟨read, g, hnewest, hread⟩ := probeSlot_snapshot hoffer
        exfalso
        by_cases hslot' : slot' = slot
        · subst hslot'
          rw [directory_ruin] at hnewest
          by_cases hreadNe : read = name
          · subst hreadNe
            have hg := hnewest.parse
            rw [hname] at hg
            cases hg
            exact hunreadable _ hread
          · have hlt := hnewest.lt name ((AList.mem_insert _).mpr (.inl rfl)) (Ne.symm hreadNe) _ hname
            have hafter := ((AList.mem_insert _).mp hnewest.mem).resolve_left hreadNe
            rw [← heq] at hmem hafter
            have := (hc.old hgeneration hname hmem hreadNe hnewest.parse hafter).1
            omega
        · rw [directory_ruin_of_ne _ _ hslot', hc.others slot' (heq ▸ hslot')] at hoffer
          rw [Slot.eq_other_of_ne hslot'] at hoffer
          have hlt := hs.older offered hoffer
          obtain ⟨read', g', hnewest', hread'⟩ := probeSlot_snapshot hoffer
          obtain ⟨loadedName, g₀, hloaded, hreadLoaded⟩ := probeSlot_snapshot hs.offer
          have hg' := (readSnapshot_ok hread').2.1
          have hg₀ := (readSnapshot_ok hreadLoaded).2.1
          have hmax := hnewest'.maxGeneration_eq
          have hmax₀ := hloaded.maxGeneration_eq
          obtain ⟨newestSlot, hnewestSlot⟩ := files.maxGeneration_eq
          by_cases hsame : newestSlot = slot
          · rw [hsame, hmax₀, ← hg₀] at hnewestSlot
            exact hparity (hnewestSlot ▸ hslot)
          · rw [Slot.eq_other_of_ne hsame] at hnewestSlot
            have := files.le_maxGeneration slot
            omega
  · have hin : name ∈ (after.ruin slot name).directory slot := by
      rw [directory_ruin]
      exact (AList.mem_insert _).mpr (.inl rfl)
    have := (le_maxGeneration hin hname).trans (StoreFiles.le_maxGeneration _ slot)
    omega

end SavedHostStore

/-- **When the loaded snapshot survives** the loss of the one that a durable commit has published,
and when the commit goes into the other slot: where the newest generation that was seen belongs to
the slot of the loaded one. -/
theorem damage_survived_iff (V : SavedHostStore) (files after : StoreFiles) (op : Operation)
    (loaded : LoadedStore) (revision : SavedVaultInventoryRevision) (generation : ℕ)
    (tape rest : List (Choice ArtifactId)) (hload : V.loadLocked files = .ok loaded)
    (hsome : loaded.generation ≠ 0)
    (hrun : V.perform op files tape =
      .returned (.ok ⟨revision, some ⟨generation, .durable⟩⟩) after rest) :
    (V.Survives loaded generation after ↔
      loaded.generation % 2 = loaded.maxSeenGeneration % 2) ∧
    (Slot.forGeneration generation ≠ Slot.forGeneration loaded.generation ↔
      loaded.generation % 2 = loaded.maxSeenGeneration % 2) := by
  obtain ⟨loaded', inventory, encoded, hc, -⟩ := (SavedHostStore.perform_spec op files).returned rfl
    hrun
  rw [hc.load] at hload
  cases hload
  obtain ⟨envelope, hp⟩ := SavedHostStore.prepareCommit_ok_iff.mp hc.prepare
  have hgeneration : generation = files.maxGeneration + 1 := hp.generation_eq_succ hc.load
  have hmax := SavedHostStore.loadLocked_maxSeen hc.load
  obtain ⟨hzero, rfl⟩ | ⟨slot, snapshot, hs, rfl⟩ := SavedHostStore.loadLocked_ok hc.load
  · exact absurd rfl hsome
  obtain ⟨loadedName, g₀, hloaded, hreadLoaded⟩ := SavedHostStore.probeSlot_snapshot hs.offer
  obtain ⟨hslot, hg₀, -⟩ := SavedHostStore.readSnapshot_ok hreadLoaded
  have hslot' : Slot.forGeneration snapshot.generation = slot := hg₀ ▸ hslot
  obtain ⟨id, hpublished, -⟩ := hc.files.lookup
  have hname := parse_snapshotName (by omega : 0 < generation) hp.generation_lt id
  have hmem : snapshotName generation id ∈ after.directory (Slot.forGeneration generation) :=
    AList.lookup_isSome.mp (by rw [hpublished]; rfl)
  dsimp only
  rw [← SavedHostStore.forGeneration_eq_iff, hslot', eq_comm]
  refine ⟨⟨fun hsurvives => ?_, fun hparity name damaged hmem hname hd => ?_⟩, ?_⟩
  · by_contra hparity
    obtain ⟨damaged, hd, hcorrupt⟩ := hs.not_survives hc.files hgeneration hslot' hparity hname hmem
    obtain ⟨maxSeen, hloadDamaged⟩ := hsurvives _ damaged hmem hname hd
    rw [hcorrupt] at hloadDamaged
    cases hloadDamaged
  · exact ⟨_, SavedHostStore.loadLocked_of_selected
      (hs.of_damaged hc.files hgeneration hparity hname hmem hd)⟩
  · rw [← hslot', ne_eq, SavedHostStore.forGeneration_eq_iff, SavedHostStore.forGeneration_eq_iff]
    omega

/-! ### A commit over the last snapshot that can be read -/

/-- The second of two snapshots has been truncated. -/
def truncatedFiles : StoreFiles :=
  ⟨AList.singleton (snapshotName 1 sampleArtifactId) (.regular (groupsBytes 0)),
    AList.singleton (snapshotName 2 sampleArtifactId) (.regular [])⟩

def truncatedRun := groupsStore.perform (importGroups 1 2 labGroups) truncatedFiles
  (List.replicate 20 quietStep)

/-- The first snapshot is loaded, the third is published; with that one lost, nothing is left. -/
theorem truncatedRun_facts :
    groupsStore.loadLocked truncatedFiles = .ok ⟨1, 2, groupsOnly .empty⟩ ∧
      truncatedRun.value? =
        some (.ok ⟨groupsStore.inventoryRevision 3 3, some ⟨3, .durable⟩⟩) ∧
      snapshotName 3 sampleArtifactId ∈ truncatedRun.state.directory .a ∧
      groupsStore.loadLocked (truncatedRun.state.ruin .a (snapshotName 3 sampleArtifactId)) =
        .error .bothSlotsCorrupt := by
  rw [truncatedRun, truncatedFiles, spelledStore.2, spelledBytes.2]
  decide +kernel

theorem truncatedRun_returned : ∃ rest, truncatedRun =
    .returned (.ok ⟨groupsStore.inventoryRevision 3 3, some ⟨3, .durable⟩⟩) truncatedRun.state rest :=
  Run.eq_returned_of_value? truncatedRun_facts.2.1

theorem damage_survived_iff_truncated :
    ¬ groupsStore.Survives ⟨1, 2, groupsOnly .empty⟩ 3 truncatedRun.state := by
  obtain ⟨rest, hrun⟩ := truncatedRun_returned
  exact fun h => absurd ((damage_survived_iff groupsStore truncatedFiles truncatedRun.state
    (importGroups 1 2 labGroups) ⟨1, 2, groupsOnly .empty⟩ _ 3 (List.replicate 20 quietStep) rest
    truncatedRun_facts.1 (by decide) hrun).1.mp h) (by decide)

/-- A durable commit can publish into the slot of the last snapshot that can be read, and its
cleanup takes that snapshot. -/
theorem not_damage_survived :
    ¬ ∀ (V : SavedHostStore) (files after : StoreFiles) (op : Operation) (loaded : LoadedStore)
      (revision : SavedVaultInventoryRevision) (generation : ℕ)
      (tape rest : List (Choice ArtifactId)), V.loadLocked files = .ok loaded →
      loaded.generation ≠ 0 →
      V.perform op files tape =
        .returned (.ok ⟨revision, some ⟨generation, .durable⟩⟩) after rest →
      V.Survives loaded generation after := by
  intro h
  obtain ⟨rest, hrun⟩ := truncatedRun_returned
  have hsurvives := h groupsStore truncatedFiles truncatedRun.state (importGroups 1 2 labGroups)
    ⟨1, 2, groupsOnly .empty⟩ _ 3 (List.replicate 20 quietStep) rest truncatedRun_facts.1 (by decide)
    hrun
  obtain ⟨-, -, hmem, hcorrupt⟩ := truncatedRun_facts
  obtain ⟨maxSeen, hload⟩ := hsurvives (snapshotName 3 sampleArtifactId) _ hmem
    (parse_snapshotName (by decide) (by decide) _) (SavedHostStore.damaged_ruin _ _ _ _)
  rw [show Slot.forGeneration 3 = .a from rfl, hcorrupt] at hload
  cases hload

end Netcatty.Vault
