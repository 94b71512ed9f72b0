import Netcatty.Vault.Operations

/-! # What a commit does to the files

Wherever a commit ends or is stopped, the slot directories either have the snapshots that they had,
or one more in the slot of its generation, next to which removable ones may be missing
(`commitLocked_spec`, `perform_spec`).  Files under temporary names are left out of account: no
reader looks at them. -/

namespace Netcatty.Vault

open Catalog Crash FileSystem

/-! ### Relations between directories -/

/-- The directories agree, except on files under temporary names. -/
def SameSnapshots (before after : SlotDirectory) : Prop :=
  ∀ name, isSnapshotTempName name = false → after.lookup name = before.lookup name

/-- One file is new. -/
def Adds (name : Text) (encoded : Bytes) (before after : SlotDirectory) : Prop :=
  before.lookup name = none ∧ after.lookup name = some (.regular encoded) ∧
    ∀ other, isSnapshotTempName other = false → other ≠ name →
      after.lookup other = before.lookup other

theorem SameSnapshots.refl (d : SlotDirectory) : SameSnapshots d d := fun _ _ => rfl

theorem ne_of_temp {name temp : Text} (hname : isSnapshotTempName name = false)
    (htemp : isSnapshotTempName temp = true) : name ≠ temp := by
  rintro rfl
  simp [hname] at htemp

theorem SameSnapshots.insert_temp {d₀ d : SlotDirectory} (h : SameSnapshots d₀ d) {temp : Text}
    (htemp : isSnapshotTempName temp = true) (file : File) :
    SameSnapshots d₀ (d.insert temp file) := fun name hname => by
  rw [AList.lookup_insert_ne (ne_of_temp hname htemp), h name hname]

theorem SameSnapshots.erase_temp {d₀ d : SlotDirectory} (h : SameSnapshots d₀ d) {temp : Text}
    (htemp : isSnapshotTempName temp = true) : SameSnapshots d₀ (d.erase temp) := fun name hname => by
  rw [AList.lookup_erase_ne (ne_of_temp hname htemp), h name hname]

theorem Adds.trans {name : Text} {encoded : Bytes} {d₀ d₁ d₂ : SlotDirectory}
    (h : Adds name encoded d₀ d₁) (hname : isSnapshotTempName name = false)
    (h' : SameSnapshots d₁ d₂) : Adds name encoded d₀ d₂ :=
  ⟨h.1, (h' name hname).trans h.2.1, fun other hother hne =>
    (h' other hother).trans (h.2.2 other hother hne)⟩

theorem snapshotName_not_temp {generation : ℕ} (hpos : 0 < generation)
    (hmax : generation < 2 ^ 64) (id : ArtifactId) :
    isSnapshotTempName (snapshotName generation id) = false := by
  cases htemp : isSnapshotTempName (snapshotName generation id) with
  | false => rfl
  | true =>
      have hnone := parse_eq_none_of_temp htemp
      simp [parse_snapshotName hpos hmax id] at hnone

namespace SavedHostStore

/-! ### Publication of one file -/

section Publish

variable {d₀ : SlotDirectory} {finalName tempName : Text} {encoded : Bytes}

/-- Where a publication is stopped. -/
def Interrupted (d₀ : SlotDirectory) (finalName : Text) (encoded : Bytes) (d : SlotDirectory) :
    Prop := SameSnapshots d₀ d ∨ Adds finalName encoded d₀ d

theorem prePublication_spec (htemp : isSnapshotTempName tempName = true)
    (hfinal : isSnapshotTempName finalName = false) :
    Triple (SameSnapshots d₀) (prePublication tempName finalName encoded)
      (fun r d => match r with
        | .error _ => SameSnapshots d₀ d
        | .ok () => Adds finalName encoded d₀ d)
      (Interrupted d₀ finalName encoded) := by
  unfold prePublication
  refine Triple.bind (writeAll_spec tempName encoded (R := SameSnapshots d₀) (fun _ => .inl)
    (fun _ => .inl) fun d n h => (h.elim id id).insert_temp htemp _) fun written => ?_
  cases written with
  | error error => exact Triple.pure fun _ h => h
  | ok u =>
      have hsame : ∀ d, (∃ d', SameSnapshots d₀ d' ∧ d = d'.insert tempName (.regular encoded)) →
          SameSnapshots d₀ d := by
        rintro _ ⟨d', h, rfl⟩
        exact h.insert_temp htemp _
      refine Triple.bind (syncAll_spec fun d h => .inl (hsame d h)) fun synced => ?_
      cases synced with
      | error error => exact Triple.pure hsame
      | ok u =>
          refine Triple.bind (hardLink_spec tempName finalName fun d h => .inl (hsame d h))
            fun linked => ?_
          cases linked with
          | error error => exact Triple.pure hsame
          | ok u =>
              refine Triple.pure ?_
              rintro _ ⟨_, file, ⟨d', h, rfl⟩, hnew, hfile, rfl⟩
              rw [AList.lookup_insert] at hfile
              cases hfile
              have hold := h.insert_temp htemp (.regular encoded)
              refine ⟨?_, AList.lookup_insert _, fun other hother hne => ?_⟩
              · rw [← hold finalName hfinal]
                exact AList.lookup_eq_none.mpr hnew
              · rw [AList.lookup_insert_ne hne, hold other hother]

theorem publicationOutcome_spec :
    Triple (Adds finalName encoded d₀) (publicationOutcome finalName encoded)
      (fun _ => Adds finalName encoded d₀) (Interrupted d₀ finalName encoded) := by
  have hstop : ∀ d, Adds finalName encoded d₀ d → Interrupted d₀ finalName encoded d :=
    fun _ => .inr
  unfold publicationOutcome
  refine Triple.bind (syncAll_spec hstop) fun synced => ?_
  cases synced with
  | ok u => exact Triple.pure fun _ h => h
  | error error =>
      refine Triple.bind (inspect_spec _ hstop) fun matched => ?_
      cases matched with
      | error error => exact Triple.pure fun _ h => h.1
      | ok found => cases found <;> exact Triple.pure fun _ h => h.1

theorem confirmPublication_spec (htemp : isSnapshotTempName tempName = true)
    (hfinal : isSnapshotTempName finalName = false) :
    Triple (Adds finalName encoded d₀) (confirmPublication tempName finalName encoded)
      (fun _ => Adds finalName encoded d₀) (Interrupted d₀ finalName encoded) := by
  have hstop : ∀ d, Adds finalName encoded d₀ d → Interrupted d₀ finalName encoded d :=
    fun _ => .inr
  have hremoved : ∀ d, (Adds finalName encoded d₀ d ∨
      ∃ d', Adds finalName encoded d₀ d' ∧ d = d'.erase tempName) →
      Adds finalName encoded d₀ d := by
    rintro d (h | ⟨d', h, rfl⟩)
    · exact h
    · exact h.trans hfinal ((SameSnapshots.refl d').erase_temp htemp)
  unfold confirmPublication
  refine Triple.bind publicationOutcome_spec fun outcome => ?_
  split
  · exact Triple.pure fun _ h => h
  · refine Triple.bind (removeFile_spec tempName hstop) fun _ => ?_
    refine Triple.bind (syncAll_spec fun d h => hstop d (hremoved d h)) fun _ => ?_
    exact Triple.pure hremoved

theorem publishNamedNoOverwrite_spec (hfinal : isSnapshotTempName finalName = false) :
    Triple (SameSnapshots d₀) (publishNamedNoOverwrite finalName encoded)
      (fun r d => match r with
        | .error _ => SameSnapshots d₀ d
        | .ok _ => Adds finalName encoded d₀ d)
      (Interrupted d₀ finalName encoded) := by
  have hstop : ∀ d, SameSnapshots d₀ d → Interrupted d₀ finalName encoded d := fun _ => .inl
  unfold publishNamedNoOverwrite
  refine Triple.bind (drawId_spec hstop) fun id => ?_
  have htemp := isSnapshotTempName_temp id
  refine Triple.bind (createNew_spec _ hstop) fun created => ?_
  cases created with
  | error error => exact Triple.pure fun _ h => h
  | ok u =>
      refine Triple.bind ((prePublication_spec htemp hfinal).weaken ?_ (fun _ _ h => h)
        fun _ h => h) fun published => ?_
      · rintro _ ⟨d, h, -, rfl⟩
        exact h.insert_temp htemp _
      cases published with
      | error error =>
          refine Triple.bind (tryExists_spec _ hstop) fun found => ?_
          cases found with
          | error error' => exact Triple.pure fun _ h => h.1
          | ok found =>
              cases found with
              | true => exact Triple.pure fun _ h => h.1
              | false =>
                  refine Triple.bind (removeFile_spec _ fun d h => hstop d h.1) fun _ => ?_
                  refine Triple.pure ?_
                  rintro d (h | ⟨d', h, rfl⟩)
                  · exact h.1
                  · exact h.1.erase_temp htemp
      | ok u =>
          exact Triple.bind (confirmPublication_spec htemp hfinal) fun _ => Triple.pure fun _ h => h

/-! ### One snapshot more -/

/-- A snapshot is new, and removable ones may be gone. -/
def PublishedIn (V : SavedHostStore) (slot : Slot) (generation : ℕ) (encoded : Bytes)
    (before after : SlotDirectory) : Prop :=
  ∃ id, before.lookup (snapshotName generation id) = none ∧
    after.lookup (snapshotName generation id) = some (.regular encoded) ∧
    ∀ name, isSnapshotTempName name = false → name ≠ snapshotName generation id →
      after.lookup name = before.lookup name ∨
        after.lookup name = none ∧ V.isRemovable slot generation name before = true

variable {V : SavedHostStore} {slot : Slot} {generation : ℕ}

theorem Adds.publishedIn {id : ArtifactId} {d : SlotDirectory}
    (h : Adds (snapshotName generation id) encoded d₀ d) :
    V.PublishedIn slot generation encoded d₀ d :=
  ⟨id, h.1, h.2.1, fun name hname hne => .inl (h.2.2 name hname hne)⟩

theorem publishSnapshotNoOverwrite_spec (hpos : 0 < generation) (hmax : generation < 2 ^ 64)
    (attempts : ℕ) :
    Triple (SameSnapshots d₀) (publishSnapshotNoOverwrite generation encoded attempts)
      (fun r d => match r with
        | .error _ => SameSnapshots d₀ d
        | .ok _ => ∃ id, Adds (snapshotName generation id) encoded d₀ d)
      (fun d => SameSnapshots d₀ d ∨ ∃ id, Adds (snapshotName generation id) encoded d₀ d) := by
  induction attempts with
  | zero => exact Triple.pure fun _ h => h
  | succ attempts ih =>
      unfold publishSnapshotNoOverwrite
      refine Triple.bind (drawId_spec fun _ => .inl) fun id => ?_
      have hname := snapshotName_not_temp hpos hmax id
      refine Triple.bind ((publishNamedNoOverwrite_spec hname).weaken (fun _ h => h)
        (fun _ _ h => h) fun _ h => h.imp_right fun h => ⟨id, h⟩) fun result => ?_
      cases result with
      | ok durability => exact Triple.pure fun _ h => ⟨id, h⟩
      | error error => cases error <;> first | exact ih | exact Triple.pure fun _ h => h

theorem readBounded_congr {d d' : SlotDirectory} {name : Text}
    (h : d.lookup name = d'.lookup name) (maxBytes : ℕ) :
    readBounded d name maxBytes = readBounded d' name maxBytes := by
  simp only [readBounded, h]

theorem readSnapshot_congr {d d' : SlotDirectory} {name : Text}
    (h : d.lookup name = d'.lookup name) (slot : Slot) (generation : ℕ) :
    V.readSnapshot d slot name generation = V.readSnapshot d' slot name generation := by
  simp only [readSnapshot, readBounded_congr h]

theorem isRemovable_congr {d d' : SlotDirectory} {name : Text}
    (h : d.lookup name = d'.lookup name) (slot : Slot) (published : ℕ) :
    V.isRemovable slot published name d = V.isRemovable slot published name d' := by
  simp only [isRemovable, ownedTempGeneration, readSnapshot_congr h, readBounded_congr h]

/-- A snapshot is not removed for its own sake. -/
theorem isRemovable_snapshotName (hpos : 0 < generation) (hmax : generation < 2 ^ 64)
    (id : ArtifactId) (d : SlotDirectory) :
    V.isRemovable slot generation (snapshotName generation id) d = false := by
  simp [isRemovable, parse_snapshotName hpos hmax id]

theorem PublishedIn.erase {d : SlotDirectory} (hpos : 0 < generation) (hmax : generation < 2 ^ 64)
    (h : V.PublishedIn slot generation encoded d₀ d) {name : Text}
    (hremovable : V.isRemovable slot generation name d = true) :
    V.PublishedIn slot generation encoded d₀ (d.erase name) := by
  obtain ⟨id, hnew, hpublished, hrest⟩ := h
  have hne : snapshotName generation id ≠ name := by
    rintro rfl
    simp [isRemovable_snapshotName hpos hmax] at hremovable
  refine ⟨id, hnew, (AList.lookup_erase_ne hne).trans hpublished, fun other hother hne' => ?_⟩
  by_cases heq : other = name
  · subst heq
    refine .inr ⟨AList.lookup_erase _ _, ?_⟩
    rcases hrest other hother hne' with hsame | ⟨-, hremovable'⟩
    · rw [← isRemovable_congr hsame, hremovable]
    · exact hremovable'
  · rw [AList.lookup_erase_ne heq]
    exact hrest other hother hne'

theorem removeOwnedArtifacts_spec (hpos : 0 < generation) (hmax : generation < 2 ^ 64)
    (names : List Text) :
    Triple (V.PublishedIn slot generation encoded d₀)
      (V.removeOwnedArtifacts slot generation names)
      (fun _ => V.PublishedIn slot generation encoded d₀)
      (V.PublishedIn slot generation encoded d₀) := by
  induction names with
  | nil => exact Triple.pure fun _ h => h
  | cons name names ih =>
      unfold removeOwnedArtifacts
      refine Triple.bind (inspect_spec _ fun _ h => h) fun removable => ?_
      cases removable with
      | error error => exact ih.weaken (fun _ h => h.1) (fun _ _ h => h) fun _ h => h
      | ok removable =>
          cases removable with
          | false => exact ih.weaken (fun _ h => h.1) (fun _ _ h => h) fun _ h => h
          | true =>
              refine Triple.bind (removeFile_spec name fun _ h => h.1) fun removed => ?_
              refine Triple.bind (ih.weaken ?_ (fun _ _ h => h) fun _ h => h) fun _ =>
                Triple.pure fun _ h => h
              rintro d (h | ⟨d', ⟨h, hremovable⟩, rfl⟩)
              · exact h.1
              · exact h.erase hpos hmax (hremovable true rfl).symm

theorem cleanupOwnedSlotArtifacts_spec (hpos : 0 < generation) (hmax : generation < 2 ^ 64) :
    Triple (V.PublishedIn slot generation encoded d₀)
      (V.cleanupOwnedSlotArtifacts slot generation)
      (fun _ => V.PublishedIn slot generation encoded d₀)
      (V.PublishedIn slot generation encoded d₀) := by
  unfold cleanupOwnedSlotArtifacts
  refine Triple.bind (readDir_spec fun _ h => h) fun names => ?_
  cases names with
  | error error => exact Triple.pure fun _ h => h
  | ok names =>
      refine Triple.bind (removeOwnedArtifacts_spec hpos hmax names) fun removedAny => ?_
      cases removedAny with
      | false => exact Triple.pure fun _ h => h
      | true => exact Triple.bind (syncAll_spec fun _ h => h) fun _ => Triple.pure fun _ h => h

theorem publishGeneration_spec (hpos : 0 < generation) (hmax : generation < 2 ^ 64) :
    Triple (SameSnapshots d₀) (V.publishGeneration slot generation encoded)
      (fun r d => match r with
        | .error _ => SameSnapshots d₀ d
        | .ok _ => V.PublishedIn slot generation encoded d₀ d)
      (fun d => SameSnapshots d₀ d ∨ V.PublishedIn slot generation encoded d₀ d) := by
  unfold publishGeneration
  refine Triple.bind ((publishSnapshotNoOverwrite_spec hpos hmax publishAttempts).weaken
    (fun _ h => h) (fun _ _ h => h) fun _ h => h.imp_right fun ⟨_, h⟩ => Adds.publishedIn h)
    fun result => ?_
  cases result with
  | error error => exact Triple.pure fun _ h => h
  | ok durability =>
      have hpublished : ∀ d, (∃ id, Adds (snapshotName generation id) encoded d₀ d) →
          V.PublishedIn slot generation encoded d₀ d := fun _ ⟨_, h⟩ => Adds.publishedIn h
      cases durability with
      | durable =>
          exact Triple.bind ((cleanupOwnedSlotArtifacts_spec hpos hmax).weaken hpublished
            (fun _ _ h => h) fun _ h => .inr h) fun _ => Triple.pure fun _ h => h
      | publishedDurabilityUncertain => exact Triple.pure hpublished
      | publicationIndeterminate => exact Triple.pure hpublished

end Publish

/-! ### A commit -/

/-- What a commit has made sure of before it publishes. -/
structure Prepared (V : SavedHostStore) (loaded : LoadedStore) (generation : ℕ) (encoded : Bytes)
    (envelope : SnapshotEnvelope) : Prop where
  checked : loaded.inventory.Checked V.externals
  generation_eq : generation = max loaded.maxSeenGeneration loaded.generation + 1
  generation_lt : generation < 2 ^ 64
  newLatest : SnapshotEnvelope.newLatest V.serde V.storeId (Slot.forGeneration generation)
    generation loaded.inventory = .ok envelope
  envelopeToVec : V.serde.envelopeToVec envelope = some encoded
  length_le : encoded.length ≤ maxSnapshotBytes

variable {V : SavedHostStore} {loaded : LoadedStore} {generation : ℕ} {encoded : Bytes}

theorem prepareCommit_ok_iff :
    V.prepareCommit loaded = .ok (generation, encoded) ↔
      ∃ envelope, V.Prepared loaded generation encoded envelope := by
  unfold prepareCommit
  constructor
  · intro h
    obtain ⟨hchecked, h⟩ := check_ok_iff.mp h
    obtain ⟨hlt, h⟩ := refuse_ok_iff.mp h
    obtain ⟨envelope, hnew, h⟩ := bind_ok_iff.mp h
    obtain ⟨bytes, hbytes, h⟩ := bind_ok_iff.mp h
    obtain ⟨hlen, h⟩ := refuse_ok_iff.mp h
    cases h
    exact ⟨envelope, checkCommit_ok_iff.mp hchecked, rfl, not_le.mp hlt, hnew,
      liftOption_ok_iff.mp hbytes, not_lt.mp hlen⟩
  · rintro ⟨envelope, hchecked, rfl, hlt, hnew, hbytes, hlen⟩
    refine check_ok_iff.mpr ⟨checkCommit_ok_iff.mpr hchecked, refuse_ok_iff.mpr ⟨not_le.mpr hlt, ?_⟩⟩
    refine bind_ok_iff.mpr ⟨envelope, hnew, bind_ok_iff.mpr ⟨encoded, ?_, ?_⟩⟩
    · exact liftOption_ok_iff.mpr hbytes
    · exact refuse_ok_iff.mpr ⟨not_lt.mpr hlen, rfl⟩

/-- Both slots have the snapshots that they had. -/
def SameFiles (before after : StoreFiles) : Prop :=
  ∀ slot, SameSnapshots (before.directory slot) (after.directory slot)

/-- A generation is new in its slot; the other slot is as it was. -/
structure CommittedIn (V : SavedHostStore) (generation : ℕ) (encoded : Bytes)
    (before after : StoreFiles) : Prop where
  published : V.PublishedIn (Slot.forGeneration generation) generation encoded
    (before.directory (Slot.forGeneration generation))
    (after.directory (Slot.forGeneration generation))
  others : ∀ slot, slot ≠ Slot.forGeneration generation →
    after.directory slot = before.directory slot

theorem SameFiles.refl (files : StoreFiles) : SameFiles files files := fun _ => SameSnapshots.refl _

@[simp] theorem directory_setDirectory (files : StoreFiles) (directory : SlotDirectory)
    (slot : Slot) : (files.setDirectory directory slot).directory slot = directory := by
  cases slot <;> rfl

theorem directory_setDirectory_of_ne (files : StoreFiles) (directory : SlotDirectory)
    {slot other : Slot} (h : other ≠ slot) :
    (files.setDirectory directory slot).directory other = files.directory other := by
  cases slot <;> cases other <;> first | rfl | exact absurd rfl h

theorem SameFiles.setDirectory {files : StoreFiles} {slot : Slot} {directory : SlotDirectory}
    (h : SameSnapshots (files.directory slot) directory) :
    SameFiles files (files.setDirectory directory slot) := by
  intro other
  by_cases heq : other = slot
  · subst heq
    rwa [directory_setDirectory]
  · rw [directory_setDirectory_of_ne _ _ heq]
    exact SameSnapshots.refl _

theorem CommittedIn.setDirectory {files : StoreFiles} {directory : SlotDirectory}
    (h : V.PublishedIn (Slot.forGeneration generation) generation encoded
      (files.directory (Slot.forGeneration generation)) directory) :
    V.CommittedIn generation encoded files
      (files.setDirectory directory (Slot.forGeneration generation)) :=
  ⟨by rwa [directory_setDirectory], fun _ hne => directory_setDirectory_of_ne _ _ hne⟩

/-- **A commit publishes the prepared generation or leaves the snapshots as they are.** -/
theorem commitLocked_spec (files : StoreFiles) :
    Triple (· = files) (V.commitLocked loaded)
      (fun r s => match r with
        | .error _ => SameFiles files s
        | .ok publication => ∃ encoded,
            V.prepareCommit loaded = .ok (publication.generation, encoded) ∧
              V.CommittedIn publication.generation encoded files s)
      (fun s => SameFiles files s ∨ ∃ generation encoded,
        V.prepareCommit loaded = .ok (generation, encoded) ∧
          V.CommittedIn generation encoded files s) := by
  unfold commitLocked
  cases hprepare : V.prepareCommit loaded with
  | error error =>
      refine Triple.pure ?_
      rintro _ rfl
      exact SameFiles.refl _
  | ok prepared =>
      obtain ⟨generation, encoded⟩ := prepared
      obtain ⟨envelope, hp⟩ := prepareCommit_ok_iff.mp hprepare
      have hpos : 0 < generation := by rw [hp.generation_eq]; exact Nat.succ_pos _
      refine Triple.bind (R := fun r s => match r with
        | .error _ => SameFiles files s
        | .ok _ => V.CommittedIn generation encoded files s) (Triple.zoom ?_) fun result => ?_
      · intro start hstart
        subst hstart
        have hpublish : Triple (SameSnapshots (start.directory (Slot.forGeneration generation)))
            (V.publishGeneration (Slot.forGeneration generation) generation encoded) _ _ :=
          publishGeneration_spec hpos hp.generation_lt
        refine hpublish.weaken ?_ (fun result d h => ?_) fun d h => ?_
        · rintro _ rfl
          exact SameSnapshots.refl _
        · cases result with
          | error error => exact SameFiles.setDirectory h
          | ok durability => exact CommittedIn.setDirectory h
        · rcases h with h | h
          · exact .inl (SameFiles.setDirectory h)
          · exact .inr ⟨generation, encoded, rfl, CommittedIn.setDirectory h⟩
      · cases result with
        | error error => exact Triple.pure fun _ h => h
        | ok durability => exact Triple.pure fun _ h => ⟨encoded, rfl, h⟩

/-! ### An operation -/

/-- What an operation has loaded and prepared when it publishes. -/
structure Commits (V : SavedHostStore) (op : Operation) (before : StoreFiles) (loaded : LoadedStore)
    (inventory : Inventory) (generation : ℕ) (encoded : Bytes) (after : StoreFiles) : Prop where
  load : V.loadLocked before = .ok loaded
  plan : V.plan loaded op = .ok (some inventory)
  prepare : V.prepareCommit { loaded with inventory } = .ok (generation, encoded)
  files : V.CommittedIn generation encoded before after

/-- **An operation commits what it has planned or leaves the snapshots as they are.** -/
theorem perform_spec (op : Operation) (files : StoreFiles) :
    Triple (· = files) (V.perform op)
      (fun r s => match r with
        | .error _ => SameFiles files s
        | .ok ⟨revision, none⟩ => s = files ∧ ∃ loaded, V.loadLocked files = .ok loaded ∧
            V.plan loaded op = .ok none ∧
            revision = V.inventoryRevision loaded.generation loaded.maxSeenGeneration
        | .ok ⟨revision, some publication⟩ => ∃ loaded inventory encoded,
            V.Commits op files loaded inventory publication.generation encoded s ∧
              revision = V.inventoryRevision publication.generation publication.generation)
      (fun s => SameFiles files s ∨ ∃ loaded inventory generation encoded,
        V.Commits op files loaded inventory generation encoded s) := by
  unfold perform
  refine Triple.bind Triple.read fun start => ?_
  by_cases hstart : start = files
  swap
  · exact fun s _ h => absurd h.2 hstart
  subst hstart
  refine Triple.weaken (P := (· = start)) ?_ (fun _ h => h.1) (fun _ _ h => h) fun _ h => h
  cases hload : V.loadLocked start with
  | error error => exact Triple.pure fun _ h => h ▸ SameFiles.refl _
  | ok loaded =>
      dsimp only
      cases hplan : V.plan loaded op with
      | error error => exact Triple.pure fun _ h => h ▸ SameFiles.refl _
      | ok inventory? =>
          cases inventory? with
          | none => exact Triple.pure fun _ h => ⟨h, loaded, rfl, hplan, rfl⟩
          | some inventory =>
              refine Triple.bind ((commitLocked_spec start).weaken (fun _ h => h) (fun _ _ h => h) ?_)
                fun result => ?_
              · rintro s (h | ⟨generation, encoded, hprepare, h⟩)
                · exact .inl h
                · exact .inr ⟨loaded, inventory, generation, encoded, hload, hplan, hprepare, h⟩
              · cases result with
                | error error => exact Triple.pure fun _ h => h
                | ok publication =>
                    refine Triple.pure ?_
                    rintro s ⟨encoded, hprepare, h⟩
                    exact ⟨loaded, inventory, encoded, ⟨hload, hplan, hprepare, h⟩, rfl⟩

end SavedHostStore

end Netcatty.Vault
