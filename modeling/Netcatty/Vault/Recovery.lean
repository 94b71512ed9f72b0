import Netcatty.Vault.ReadBack

/-! # Operations that are stopped

A store that was only ever written by its own operations is sound: each of its snapshots can be read
and no generation has two of them (`Reachable.sound`).  An operation that is stopped anywhere leaves
the inventory from before or the one that it was committing (`stopped_anywhere`). -/

namespace Netcatty.Vault

open Catalog Crash FileSystem

/-- JSON is decoded to what was encoded, for the inventories that a commit accepts. -/
def Serde.ReadsBack (S : Serde) (E : Externals) : Prop :=
  ∀ envelope encoded, envelope.inventory.Checked E → envelope.inventory.Spelled →
    S.envelopeToVec envelope = some encoded → S.envelopeFromSlice encoded = some envelope

namespace SavedHostStore

variable {V : SavedHostStore}

/-! ### Soundness -/

/-- Every snapshot of a slot can be read, and a generation has one file. -/
structure SoundSlot (V : SavedHostStore) (slot : Slot) (d : SlotDirectory) : Prop where
  read : ∀ name ∈ d, ∀ generation, parseSnapshotName name = some generation →
    ∃ inventory, V.readSnapshot d slot name generation = .ok ⟨generation, inventory⟩ ∧
      inventory.Checked V.externals ∧ inventory.Spelled
  unique : ∀ name ∈ d, ∀ name' ∈ d, ∀ generation, parseSnapshotName name = some generation →
    parseSnapshotName name' = some generation → name = name'

def Sound (V : SavedHostStore) (files : StoreFiles) : Prop :=
  ∀ slot, V.SoundSlot slot (files.directory slot)

theorem SoundSlot.newest {slot : Slot} {d : SlotDirectory} (h : V.SoundSlot slot d)
    (hne : maxGeneration d ≠ 0) : ∃ name, Newest d name (maxGeneration d) := by
  obtain ⟨name, hmem, hparse⟩ := maxGeneration_mem hne
  refine ⟨name, hmem, hparse, fun other hother hne g hg => ?_⟩
  refine lt_of_le_of_ne (le_maxGeneration hother hg) fun heq => hne ?_
  exact h.unique other hother name hmem _ (heq ▸ hg) hparse

theorem SoundSlot.congr {slot : Slot} {d d' : SlotDirectory} (h : V.SoundSlot slot d)
    (ha : AgreeOnSnapshots d d') : V.SoundSlot slot d' := by
  have hmem : ∀ {name generation}, name ∈ d' → parseSnapshotName name = some generation → name ∈ d :=
    fun hname hparse => (mem_of_lookup_eq (ha _ _ hparse)).mp hname
  constructor
  · intro name hname generation hparse
    obtain ⟨inventory, hread, hinventory⟩ := h.read name (hmem hname hparse) generation hparse
    exact ⟨inventory, (readSnapshot_congr (ha name generation hparse) slot generation).trans hread,
      hinventory⟩
  · intro name hname name' hname' generation hparse hparse'
    exact h.unique name (hmem hname hparse) name' (hmem hname' hparse') generation hparse hparse'

/-- A sound store offers the newest generation of each slot. -/
theorem Sound.offer {files : StoreFiles} (h : V.Sound files) {slot : Slot}
    {snapshot : ValidatedSnapshot}
    (hs : (V.probeSlot (files.directory slot) slot).snapshot = some snapshot) :
    snapshot.generation = maxGeneration (files.directory slot) ∧
      Slot.forGeneration snapshot.generation = slot ∧
      snapshot.inventory.Checked V.externals ∧ snapshot.inventory.Spelled := by
  obtain ⟨name, generation, hnewest, hread⟩ := probeSlot_snapshot hs
  obtain ⟨inventory, hread', hchecked, hspelled⟩ :=
    (h slot).read name hnewest.mem generation hnewest.parse
  rw [hread] at hread'
  cases hread'
  exact ⟨hnewest.maxGeneration_eq.symm, (readSnapshot_ok hread).1, hchecked, hspelled⟩

/-- A sound store loads the newest generation of all. -/
theorem Sound.load_of_mem {files : StoreFiles} (h : V.Sound files) {slot : Slot} {name : Text}
    {inventory : Inventory} (hmem : name ∈ files.directory slot)
    (hparse : parseSnapshotName name = some files.maxGeneration)
    (hread : V.readSnapshot (files.directory slot) slot name files.maxGeneration =
      .ok ⟨files.maxGeneration, inventory⟩) :
    V.loadLocked files = .ok ⟨files.maxGeneration, files.maxGeneration, inventory⟩ := by
  have hmax : maxGeneration (files.directory slot) = files.maxGeneration :=
    le_antisymm (files.le_maxGeneration slot) (le_maxGeneration hmem hparse)
  have hnewest : Newest (files.directory slot) name files.maxGeneration := by
    refine ⟨hmem, hparse, fun other hother hne g hg => ?_⟩
    refine lt_of_le_of_ne (hmax ▸ le_maxGeneration hother hg) fun heq => hne ?_
    exact (h slot).unique other hother name hmem _ (heq ▸ hg) hparse
  have hselected : V.Selected files slot ⟨files.maxGeneration, inventory⟩ := by
    refine ⟨?_, fun other hother => ?_⟩
    · rw [probeSlot_of_newest hnewest, hread]
      rfl
    · obtain ⟨hgeneration, hslot, -⟩ := h.offer hother
      refine lt_of_le_of_ne (hgeneration ▸ files.le_maxGeneration slot.other) fun heq => ?_
      rw [heq, (readSnapshot_ok hread).1] at hslot
      cases slot <;> cases hslot
  exact loadLocked_of_selected hselected

theorem empty_checked (E : Externals) : Inventory.empty.Checked E := by
  have hnormal : normalizeLoadedStore E .empty = .ok .empty := rfl
  exact (normalizeLoadedStore_ok_iff.mp hnormal).1

theorem empty_spelled : Inventory.empty.Spelled :=
  ⟨fun _ h => absurd h List.not_mem_nil, fun _ h => absurd h List.not_mem_nil⟩

/-- **A sound store can be loaded**, up to its newest generation. -/
theorem Sound.load {files : StoreFiles} (h : V.Sound files) :
    ∃ inventory, V.loadLocked files = .ok ⟨files.maxGeneration, files.maxGeneration, inventory⟩ ∧
      inventory.Checked V.externals ∧ inventory.Spelled := by
  obtain ⟨slot, hmax⟩ := files.maxGeneration_eq
  by_cases hzero : files.maxGeneration = 0
  · have hnone : ∀ slot, maxGeneration (files.directory slot) = 0 := fun slot =>
      Nat.le_zero.mp (hzero ▸ files.le_maxGeneration slot)
    have hempty : ∀ slot, (V.probeSlot (files.directory slot) slot).snapshot = none := by
      intro slot
      cases hs : (V.probeSlot (files.directory slot) slot).snapshot with
      | none => rfl
      | some snapshot =>
          obtain ⟨name, generation, hnewest, -⟩ := probeSlot_snapshot hs
          have := (parseSnapshotName_bounds hnewest.parse).1
          have := hnewest.maxGeneration_eq
          have := hnone slot
          omega
    have ha := hempty .a
    have hb := hempty .b
    have ha' := (probeSlot_empty_iff (V := V) files.slotA .a).mpr (hnone .a)
    have hb' := (probeSlot_empty_iff (V := V) files.slotB .b).mpr (hnone .b)
    simp only [StoreFiles.directory] at ha hb
    refine ⟨.empty, ?_, empty_checked _, empty_spelled⟩
    have hmax' : max (maxGeneration files.slotA) (maxGeneration files.slotB) = 0 := hzero
    simp only [loadLocked, ha, hb, ha', hb', probeSlot_maxSeen, Bool.and_self, if_true, hzero,
      hmax']
  · obtain ⟨name, hnewest⟩ := (h slot).newest (hmax ▸ hzero)
    rw [← hmax] at hnewest
    obtain ⟨inventory, hread, hchecked, hspelled⟩ :=
      (h slot).read name hnewest.mem _ hnewest.parse
    exact ⟨inventory, h.load_of_mem hnewest.mem hnewest.parse hread, hchecked, hspelled⟩

/-! ### Commits keep a store sound -/

theorem loadLocked_generation_le {files : StoreFiles} {loaded : LoadedStore}
    (h : V.loadLocked files = .ok loaded) : loaded.generation ≤ files.maxGeneration := by
  rcases loadLocked_ok h with ⟨hzero, rfl⟩ | ⟨slot, snapshot, hselected, rfl⟩
  · exact Nat.zero_le _
  · obtain ⟨name, generation, hnewest, hread⟩ := probeSlot_snapshot hselected.offer
    rw [(readSnapshot_ok hread).2.1, ← hnewest.maxGeneration_eq]
    exact files.le_maxGeneration slot

/-- A commit takes the generation after all that are there. -/
theorem Prepared.generation_eq_succ {files : StoreFiles} {loaded : LoadedStore}
    {inventory : Inventory} {generation : ℕ} {encoded : Bytes} {envelope : SnapshotEnvelope}
    (hload : V.loadLocked files = .ok loaded)
    (hp : V.Prepared { loaded with inventory } generation encoded envelope) :
    generation = files.maxGeneration + 1 := by
  rw [hp.generation_eq, loadLocked_maxSeen hload, max_eq_left (loadLocked_generation_le hload)]

/-- A file in the slot of a commit is the new one or was there before. -/
theorem CommittedIn.lookup {generation : ℕ} {encoded : Bytes} {before after : StoreFiles}
    (h : V.CommittedIn generation encoded before after) :
    ∃ id, (after.directory (Slot.forGeneration generation)).lookup (snapshotName generation id) =
        some (.regular encoded) ∧
      ∀ slot name g, name ∈ after.directory slot → parseSnapshotName name = some g →
        slot = Slot.forGeneration generation ∧ name = snapshotName generation id ∨
          g ≤ before.maxGeneration ∧ name ∈ before.directory slot ∧
            (after.directory slot).lookup name = (before.directory slot).lookup name := by
  obtain ⟨id, hnew, hpublished, hrest⟩ := h.published
  refine ⟨id, hpublished, fun slot name g hmem hparse => ?_⟩
  have hold : (after.directory slot).lookup name = (before.directory slot).lookup name →
      g ≤ before.maxGeneration ∧ name ∈ before.directory slot ∧
        (after.directory slot).lookup name = (before.directory slot).lookup name := fun hlookup => by
    have hbefore := (mem_of_lookup_eq hlookup).mp hmem
    exact ⟨(le_maxGeneration hbefore hparse).trans (before.le_maxGeneration slot), hbefore, hlookup⟩
  by_cases hslot : slot = Slot.forGeneration generation
  · subst hslot
    by_cases hname : name = snapshotName generation id
    · exact .inl ⟨rfl, hname⟩
    · have htemp : isSnapshotTempName name = false := by
        cases htemp : isSnapshotTempName name with
        | false => rfl
        | true => simp [parse_eq_none_of_temp htemp] at hparse
      rcases hrest name htemp hname with hsame | ⟨hgone, -⟩
      · exact .inr (hold hsame)
      · exact absurd hmem (AList.lookup_eq_none.mp hgone)
  · exact .inr (hold (by rw [h.others slot hslot]))

/-- What a commit leaves: one file more, of the generation after all others, that can be read. -/
structure Published (V : SavedHostStore) (before : StoreFiles) (inventory : Inventory)
    (generation : ℕ) (after : StoreFiles) (id : ArtifactId) : Prop where
  generation_eq : generation = before.maxGeneration + 1
  parse : parseSnapshotName (snapshotName generation id) = some generation
  mem : snapshotName generation id ∈ after.directory (Slot.forGeneration generation)
  read : V.readSnapshot (after.directory (Slot.forGeneration generation))
    (Slot.forGeneration generation) (snapshotName generation id) generation =
      .ok ⟨generation, inventory⟩
  checked : inventory.Checked V.externals
  spelled : inventory.Spelled
  files : ∀ slot name g, name ∈ after.directory slot → parseSnapshotName name = some g →
    slot = Slot.forGeneration generation ∧ name = snapshotName generation id ∨
      g ≤ before.maxGeneration ∧ name ∈ before.directory slot ∧
        (after.directory slot).lookup name = (before.directory slot).lookup name

theorem Commits.published (hjson : V.serde.ReadsBack V.externals) {op : Operation}
    {before after : StoreFiles} {loaded : LoadedStore} {inventory : Inventory} {generation : ℕ}
    {encoded : Bytes} (hc : V.Commits op before loaded inventory generation encoded after)
    (hspelled : loaded.inventory.Spelled) (hop : op.Spelled) :
    ∃ id, V.Published before inventory generation after id := by
  obtain ⟨envelope, hp⟩ := prepareCommit_ok_iff.mp hc.prepare
  have hgeneration := hp.generation_eq_succ hc.load
  have hspelled' : inventory.Spelled := edit_spelled hspelled hop (plan_edit hc.plan)
  have hdecode := hjson envelope encoded (hp.inventory_eq ▸ hp.checked)
    (by rw [hp.inventory_eq]; exact hspelled') hp.envelopeToVec
  obtain ⟨id, hpublished, hfiles⟩ := hc.files.lookup
  exact ⟨id, hgeneration, parse_snapshotName (by omega) hp.generation_lt id,
    AList.lookup_isSome.mp (by rw [hpublished]; rfl),
    hp.readSnapshot (plan_inOrder hc.load hc.plan) hdecode hpublished, hp.checked, hspelled', hfiles⟩

section Published

variable {before after : StoreFiles} {inventory : Inventory} {generation : ℕ} {id : ArtifactId}

theorem Published.unique (h : V.Published before inventory generation after id) {slot : Slot}
    (hbefore : ∀ name ∈ before.directory slot, ∀ name' ∈ before.directory slot, ∀ g,
      parseSnapshotName name = some g → parseSnapshotName name' = some g → name = name')
    {name name' : Text} {g : ℕ} (hmem : name ∈ after.directory slot)
    (hmem' : name' ∈ after.directory slot) (hparse : parseSnapshotName name = some g)
    (hparse' : parseSnapshotName name' = some g) : name = name' := by
  have hgeneration := h.generation_eq
  have hparsed := h.parse
  rcases h.files slot name g hmem hparse with ⟨rfl, rfl⟩ | ⟨hle, hold, -⟩ <;>
    rcases h.files _ name' g hmem' hparse' with ⟨hslot, rfl⟩ | ⟨hle', hold', -⟩
  · rfl
  · rw [hparsed] at hparse
    cases hparse
    omega
  · rw [hparsed] at hparse'
    cases hparse'
    omega
  · exact hbefore name hold name' hold' g hparse hparse'

theorem Published.maxGeneration (h : V.Published before inventory generation after id) :
    after.maxGeneration = generation := by
  have hgeneration := h.generation_eq
  refine le_antisymm ?_ ((le_maxGeneration h.mem h.parse).trans (after.le_maxGeneration _))
  obtain ⟨slot, heq⟩ := after.maxGeneration_eq
  by_cases hzero : SavedHostStore.maxGeneration (after.directory slot) = 0
  · omega
  · obtain ⟨name, hname, hparse⟩ := maxGeneration_mem hzero
    rw [heq]
    rcases h.files slot name _ hname hparse with ⟨-, rfl⟩ | ⟨hle, -⟩
    · rw [h.parse] at hparse
      exact (Option.some.inj hparse).ge
    · omega

/-- **A commit keeps a store sound**, and is loaded from then on. -/
theorem Published.sound (h : V.Published before inventory generation after id)
    (hbefore : V.Sound before) :
    V.Sound after ∧ V.loadLocked after = .ok ⟨generation, generation, inventory⟩ := by
  have hsound : V.Sound after := by
    intro slot
    refine ⟨fun name hmem g hparse => ?_, fun name hmem name' hmem' g hparse hparse' =>
      h.unique (hbefore slot).unique hmem hmem' hparse hparse'⟩
    rcases h.files slot name g hmem hparse with ⟨rfl, rfl⟩ | ⟨-, hold, hlookup⟩
    · rw [h.parse] at hparse
      cases hparse
      exact ⟨inventory, h.read, h.checked, h.spelled⟩
    · rw [readSnapshot_congr hlookup]
      exact (hbefore slot).read name hold g hparse
  have hmax := h.maxGeneration
  obtain ⟨-, hparse, hmem, hread, -⟩ := h
  refine ⟨hsound, ?_⟩
  rw [← hmax] at hmem hparse hread ⊢
  exact hsound.load_of_mem hmem hparse hread

end Published

theorem SoundSlot.empty (slot : Slot) : V.SoundSlot slot ∅ :=
  ⟨fun name h => absurd h (AList.notMem_empty name), fun name h => absurd h (AList.notMem_empty name)⟩

theorem Sound.empty : V.Sound .empty := fun slot => by
  cases slot <;> exact SoundSlot.empty _

/-- The stores that operations lead to, from an empty one; each may be stopped anywhere. -/
inductive Reachable (V : SavedHostStore) : StoreFiles → Prop
  | empty : Reachable V .empty
  | step {files : StoreFiles} (op : Operation) (tape : List (Choice ArtifactId)) :
      Reachable V files → op.Spelled → Reachable V (V.perform op files tape).state

/-- What is loaded is the inventory from before or the one that the operation commits. -/
def BeforeOrCommitted (V : SavedHostStore) (op : Operation) (before after : StoreFiles) : Prop :=
  V.loadLocked after = V.loadLocked before ∨
    ∃ loaded inventory generation encoded, V.loadLocked before = .ok loaded ∧
      V.plan loaded op = .ok (some inventory) ∧
      V.prepareCommit { loaded with inventory } = .ok (generation, encoded) ∧
      V.loadLocked after = .ok ⟨generation, generation, inventory⟩

/-- What an operation leaves behind, wherever it ends. -/
theorem Sound.perform (hjson : V.serde.ReadsBack V.externals) {files : StoreFiles}
    (h : V.Sound files) {op : Operation} (hop : op.Spelled) (tape : List (Choice ArtifactId)) :
    V.Sound (V.perform op files tape).state ∧
      V.BeforeOrCommitted op files (V.perform op files tape).state := by
  have hsame : ∀ after, SameFiles files after → V.Sound after ∧ V.BeforeOrCommitted op files after :=
    fun after hs => ⟨fun slot => (h slot).congr (agreeOnSnapshots_of_same (hs slot)),
      .inl hs.loadLocked_eq⟩
  have hcommits : ∀ after loaded inventory generation encoded,
      V.Commits op files loaded inventory generation encoded after →
      V.Sound after ∧ V.BeforeOrCommitted op files after := by
    intro after loaded inventory generation encoded hc
    obtain ⟨inventory', hload, -, hspelled⟩ := h.load
    rw [hc.load] at hload
    cases hload
    obtain ⟨id, hp⟩ := hc.published hjson hspelled hop
    obtain ⟨hsound, hafter⟩ := hp.sound h
    exact ⟨hsound, .inr ⟨_, inventory, generation, encoded, hc.load, hc.plan, hc.prepare, hafter⟩⟩
  have hspec : Triple (· = files) (V.perform op)
      (fun _ s => V.Sound s ∧ V.BeforeOrCommitted op files s)
      (fun s => V.Sound s ∧ V.BeforeOrCommitted op files s) := by
    refine (perform_spec op files).weaken (fun _ h => h) ?_ ?_
    · rintro (error | ⟨revision, publication?⟩) s hs
      · exact hsame s hs
      · cases publication? with
        | none => exact hsame s (hs.1 ▸ SameFiles.refl _)
        | some publication =>
            obtain ⟨loaded, inventory, encoded, hc, -⟩ := hs
            exact hcommits s _ _ _ _ hc
    · rintro s (hs | ⟨loaded, inventory, generation, encoded, hc⟩)
      · exact hsame s hs
      · exact hcommits s _ _ _ _ hc
  exact hspec.state rfl tape

/-- **Every store that operations lead to is sound.** -/
theorem Reachable.sound (hjson : V.serde.ReadsBack V.externals) {files : StoreFiles}
    (h : V.Reachable files) : V.Sound files := by
  induction h with
  | empty => exact Sound.empty
  | step op tape _ hop ih => exact (ih.perform hjson hop tape).1

end SavedHostStore

def sampleArtifactId : ArtifactId := ⟨"00112233445566778899aabbccddeeff".toList, by decide⟩

/-- A step at which nothing goes wrong. -/
def quietStep : Choice ArtifactId := ⟨sampleArtifactId, false, 0⟩

end Netcatty.Vault
