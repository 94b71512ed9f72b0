import Netcatty.Vault.Publication

/-! # What a load selects

A slot offers the one file of its newest generation, if that file can be read
(`probeSlot_of_newest`); the load takes the newer of the two offers (`loadLocked_of_selected`,
`loadLocked_ok`).  Neither depends on the order in which a directory is listed, nor on files that are
not named as snapshots (`loadLocked_congr`). -/

namespace Netcatty.Vault

open Catalog FileSystem

/-! ### The newest generation of a slot -/

namespace SavedHostStore

theorem mem_snapshotCandidates {d : SlotDirectory} {generation : ℕ} {name : Text} :
    (generation, name) ∈ snapshotCandidates d ↔
      name ∈ d ∧ parseSnapshotName name = some generation := by
  simp only [snapshotCandidates, List.mem_filterMap, Option.map_eq_some_iff, Prod.mk.injEq,
    AList.mem_keys]
  constructor
  · rintro ⟨name', hmem, g, hg, rfl, rfl⟩
    exact ⟨hmem, hg⟩
  · exact fun ⟨hmem, hg⟩ => ⟨name, hmem, generation, hg, rfl, rfl⟩

theorem nodup_snapshotCandidates (d : SlotDirectory) : (snapshotCandidates d).Nodup := by
  refine d.keys_nodup.filterMap fun name name' candidate h h' => ?_
  obtain ⟨_, _, rfl⟩ := Option.map_eq_some_iff.mp h
  obtain ⟨_, _, heq⟩ := Option.map_eq_some_iff.mp h'
  exact (congrArg Prod.snd heq).symm

/-- The largest generation that a name in the directory carries. -/
def maxGeneration (d : SlotDirectory) : ℕ := ((snapshotCandidates d).map Prod.fst).max?.getD 0

theorem le_maxGeneration {d : SlotDirectory} {generation : ℕ} {name : Text} (hmem : name ∈ d)
    (hparse : parseSnapshotName name = some generation) : generation ≤ maxGeneration d := by
  have hcandidate : generation ∈ (snapshotCandidates d).map Prod.fst :=
    List.mem_map.mpr ⟨_, mem_snapshotCandidates.mpr ⟨hmem, hparse⟩, rfl⟩
  unfold maxGeneration
  cases hmax : ((snapshotCandidates d).map Prod.fst).max? with
  | none =>
      rw [List.max?_eq_none_iff] at hmax
      simp [hmax] at hcandidate
  | some m => exact (List.max?_eq_some_iff.mp hmax).2 _ hcandidate

theorem maxGeneration_mem {d : SlotDirectory} (h : maxGeneration d ≠ 0) :
    ∃ name ∈ d, parseSnapshotName name = some (maxGeneration d) := by
  cases hmax : ((snapshotCandidates d).map Prod.fst).max? with
  | none => exact absurd (by rw [maxGeneration, hmax]; rfl) h
  | some m =>
      obtain ⟨⟨_, name⟩, hmem, rfl⟩ := List.mem_map.mp (List.max?_eq_some_iff.mp hmax).1
      obtain ⟨hname, hparse⟩ := mem_snapshotCandidates.mp hmem
      refine ⟨name, hname, ?_⟩
      rw [maxGeneration, hmax]
      exact hparse

/-- The one file of the newest generation. -/
structure Newest (d : SlotDirectory) (name : Text) (generation : ℕ) : Prop where
  mem : name ∈ d
  parse : parseSnapshotName name = some generation
  lt : ∀ other ∈ d, other ≠ name → ∀ g, parseSnapshotName other = some g → g < generation

theorem Newest.maxGeneration_eq {d : SlotDirectory} {name : Text} {generation : ℕ}
    (h : Newest d name generation) : maxGeneration d = generation := by
  have hle := le_maxGeneration h.mem h.parse
  have hpos := (parseSnapshotName_bounds h.parse).1
  obtain ⟨other, hmem, hparse⟩ := maxGeneration_mem (d := d) (by omega)
  by_cases heq : other = name
  · rw [heq, h.parse] at hparse
    exact (Option.some.inj hparse).symm
  · have := h.lt other hmem heq _ hparse
    omega

variable {V : SavedHostStore}

theorem probeSlot_of_newest {d : SlotDirectory} {slot : Slot} {name : Text} {generation : ℕ}
    (h : Newest d name generation) :
    V.probeSlot d slot =
      ⟨false, some generation, (V.readSnapshot d slot name generation).toOption⟩ := by
  have hmem : (generation, name) ∈ snapshotCandidates d :=
    mem_snapshotCandidates.mpr ⟨h.mem, h.parse⟩
  have hmax : ((snapshotCandidates d).map Prod.fst).max? = some generation := by
    refine List.max?_eq_some_iff.mpr ⟨List.mem_map.mpr ⟨_, hmem, rfl⟩, fun g hg => ?_⟩
    obtain ⟨⟨_, other⟩, hother, rfl⟩ := List.mem_map.mp hg
    obtain ⟨hother, hparse⟩ := mem_snapshotCandidates.mp hother
    rw [← h.maxGeneration_eq]
    exact le_maxGeneration hother hparse
  have hfilter : (snapshotCandidates d).filter (·.1 = generation) = [(generation, name)] := by
    refine List.perm_singleton.mp ((List.perm_ext_iff_of_nodup
      ((nodup_snapshotCandidates d).filter _) (List.nodup_singleton _)).mpr ?_)
    rintro ⟨g, other⟩
    simp only [List.mem_filter, decide_eq_true_eq, List.mem_singleton, Prod.mk.injEq]
    constructor
    · rintro ⟨hother, rfl⟩
      obtain ⟨hother, hparse⟩ := mem_snapshotCandidates.mp hother
      refine ⟨rfl, by_contra fun hne => ?_⟩
      exact lt_irrefl _ (h.lt other hother hne _ hparse)
    · rintro ⟨rfl, rfl⟩
      exact ⟨hmem, rfl⟩
  simp only [probeSlot, hmax, hfilter]

theorem probeSlot_maxSeen (d : SlotDirectory) (slot : Slot) :
    (V.probeSlot d slot).maxSeen.getD 0 = maxGeneration d := by
  cases hmax : ((snapshotCandidates d).map Prod.fst).max? with
  | none => simp only [probeSlot, maxGeneration, hmax]
  | some m =>
      simp only [probeSlot, maxGeneration, hmax]
      split <;> rfl

theorem probeSlot_empty_iff (d : SlotDirectory) (slot : Slot) :
    (V.probeSlot d slot).empty = true ↔ maxGeneration d = 0 := by
  cases hmax : ((snapshotCandidates d).map Prod.fst).max? with
  | none => simp [probeSlot, maxGeneration, hmax]
  | some m =>
      obtain ⟨⟨g, name⟩, hmem, rfl⟩ := List.mem_map.mp (List.max?_eq_some_iff.mp hmax).1
      have hpos := (parseSnapshotName_bounds (mem_snapshotCandidates.mp hmem).2).1
      simp only [probeSlot, maxGeneration, hmax]
      split <;> simp [hpos.ne']

theorem probeSlot_snapshot {d : SlotDirectory} {slot : Slot} {snapshot : ValidatedSnapshot}
    (h : (V.probeSlot d slot).snapshot = some snapshot) :
    ∃ name generation, Newest d name generation ∧
      V.readSnapshot d slot name generation = .ok snapshot := by
  cases hmax : ((snapshotCandidates d).map Prod.fst).max? with
  | none => simp [probeSlot, hmax] at h
  | some m =>
      simp only [probeSlot, hmax] at h
      split at h
      · rename_i generation name hfilter
        have hmem : (generation, name) ∈ (snapshotCandidates d).filter (·.1 = m) := by
          rw [hfilter]
          exact List.mem_singleton_self _
        obtain ⟨hcandidate, hm⟩ := List.mem_filter.mp hmem
        obtain rfl : generation = m := by simpa using hm
        obtain ⟨hname, hparse⟩ := mem_snapshotCandidates.mp hcandidate
        refine ⟨name, generation, ⟨hname, hparse, fun other hother hne g hg => ?_⟩, ?_⟩
        · have hmember := mem_snapshotCandidates.mpr ⟨hother, hg⟩
          have hle := (List.max?_eq_some_iff.mp hmax).2 g (List.mem_map.mpr ⟨_, hmember, rfl⟩)
          refine lt_of_le_of_ne hle fun heq => hne ?_
          subst heq
          have hmem' : (g, other) ∈ (snapshotCandidates d).filter (·.1 = g) :=
            List.mem_filter.mpr ⟨hmember, by simp⟩
          rw [hfilter, List.mem_singleton] at hmem'
          exact congrArg Prod.snd hmem'
        · cases hread : V.readSnapshot d slot name generation with
          | error error => simp [hread, Except.toOption] at h
          | ok read =>
              rw [hread] at h
              exact congrArg _ (Option.some.inj h)
      · exact absurd h (by simp)

/-! ### The two slots -/

end SavedHostStore

def Slot.other : Slot → Slot
  | .a => .b
  | .b => .a

theorem Slot.eq_other_of_ne {slot slot' : Slot} (h : slot' ≠ slot) : slot' = slot.other := by
  cases slot <;> cases slot' <;> first | rfl | exact absurd rfl h

def StoreFiles.maxGeneration (files : StoreFiles) : ℕ :=
  max (SavedHostStore.maxGeneration files.slotA) (SavedHostStore.maxGeneration files.slotB)

theorem StoreFiles.le_maxGeneration (files : StoreFiles) (slot : Slot) :
    SavedHostStore.maxGeneration (files.directory slot) ≤ files.maxGeneration := by
  cases slot
  · exact le_max_left _ _
  · exact le_max_right _ _

theorem StoreFiles.maxGeneration_eq (files : StoreFiles) :
    ∃ slot, files.maxGeneration = SavedHostStore.maxGeneration (files.directory slot) := by
  rcases le_total (SavedHostStore.maxGeneration files.slotA)
    (SavedHostStore.maxGeneration files.slotB) with h | h
  · exact ⟨.b, max_eq_right h⟩
  · exact ⟨.a, max_eq_left h⟩

namespace SavedHostStore

variable {V : SavedHostStore} {files : StoreFiles}

/-- The offer of a slot, and that of the other is older. -/
structure Selected (V : SavedHostStore) (files : StoreFiles) (slot : Slot)
    (snapshot : ValidatedSnapshot) : Prop where
  offer : (V.probeSlot (files.directory slot) slot).snapshot = some snapshot
  older : ∀ other, (V.probeSlot (files.directory slot.other) slot.other).snapshot = some other →
    other.generation < snapshot.generation

theorem loadLocked_of_selected {slot : Slot} {snapshot : ValidatedSnapshot}
    (h : V.Selected files slot snapshot) :
    V.loadLocked files =
      .ok ⟨snapshot.generation, files.maxGeneration, snapshot.inventory⟩ := by
  obtain ⟨hsnapshot, holder⟩ := h
  have hmax : files.maxGeneration = max ((V.probeSlot files.slotA .a).maxSeen.getD 0)
      ((V.probeSlot files.slotB .b).maxSeen.getD 0) := by
    rw [probeSlot_maxSeen, probeSlot_maxSeen]
    rfl
  rw [hmax]
  unfold loadLocked
  cases slot with
  | a =>
      simp only [StoreFiles.directory, Slot.other] at hsnapshot holder
      simp only [hsnapshot]
      cases hother : (V.probeSlot files.slotB .b).snapshot with
      | none => rfl
      | some other =>
          have hlt := holder other hother
          simp only [hlt.ne', hlt, if_true, if_false]
  | b =>
      simp only [StoreFiles.directory, Slot.other] at hsnapshot holder
      simp only [hsnapshot]
      cases hother : (V.probeSlot files.slotA .a).snapshot with
      | none => rfl
      | some other =>
          have hlt := holder other hother
          simp only [hlt.ne, hlt.not_gt, if_false]

/-- A load takes an offer, or finds an empty store. -/
theorem loadLocked_ok {loaded : LoadedStore} (h : V.loadLocked files = .ok loaded) :
    (files.maxGeneration = 0 ∧ loaded = ⟨0, 0, .empty⟩) ∨
      ∃ slot snapshot, V.Selected files slot snapshot ∧
        loaded = ⟨snapshot.generation, files.maxGeneration, snapshot.inventory⟩ := by
  have hselected : ∀ slot {snapshot}, V.Selected files slot snapshot →
      ∃ slot snapshot, V.Selected files slot snapshot ∧
        loaded = ⟨snapshot.generation, files.maxGeneration, snapshot.inventory⟩ := by
    intro slot snapshot hs
    refine ⟨slot, snapshot, hs, ?_⟩
    rw [loadLocked_of_selected hs] at h
    exact (Except.ok.inj h).symm
  cases ha : (V.probeSlot files.slotA .a).snapshot with
  | none =>
      cases hb : (V.probeSlot files.slotB .b).snapshot with
      | none =>
          simp only [loadLocked, ha, hb, probeSlot_maxSeen] at h
          split at h
          · rename_i hempty
            rw [Bool.and_eq_true, probeSlot_empty_iff, probeSlot_empty_iff] at hempty
            cases h
            refine .inl ⟨?_, ?_⟩
            · simp [StoreFiles.maxGeneration, hempty]
            · simp [hempty]
          · exact absurd h (by simp)
      | some snapshot =>
          refine .inr (hselected .b ⟨hb, fun other hother => ?_⟩)
          exact absurd (ha.symm.trans hother) (by simp)
  | some snapshot =>
      cases hb : (V.probeSlot files.slotB .b).snapshot with
      | none =>
          refine .inr (hselected .a ⟨ha, fun other hother => ?_⟩)
          exact absurd (hb.symm.trans hother) (by simp)
      | some other =>
          rcases lt_trichotomy snapshot.generation other.generation with hlt | heq | hlt
          · refine .inr (hselected .b ⟨hb, fun read hread => ?_⟩)
            rwa [← Option.some.inj (ha.symm.trans hread)]
          · simp only [loadLocked, ha, hb, heq, if_true] at h
            exact absurd h (by simp)
          · refine .inr (hselected .a ⟨ha, fun read hread => ?_⟩)
            rwa [← Option.some.inj (hb.symm.trans hread)]

theorem loadLocked_maxSeen {loaded : LoadedStore} (h : V.loadLocked files = .ok loaded) :
    loaded.maxSeenGeneration = files.maxGeneration := by
  rcases loadLocked_ok h with ⟨hzero, rfl⟩ | ⟨slot, snapshot, -, rfl⟩
  · exact hzero.symm
  · rfl

/-! ### Files that a load does not look at -/

/-- The directories agree on the files that are named as snapshots. -/
def AgreeOnSnapshots (d d' : SlotDirectory) : Prop :=
  ∀ name generation, parseSnapshotName name = some generation → d'.lookup name = d.lookup name

theorem mem_of_lookup_eq {d d' : SlotDirectory} {name : Text}
    (h : d'.lookup name = d.lookup name) : name ∈ d' ↔ name ∈ d := by
  rw [← AList.lookup_isSome, ← AList.lookup_isSome, h]

theorem AgreeOnSnapshots.newest {d d' : SlotDirectory} (h : AgreeOnSnapshots d d') {name : Text}
    {generation : ℕ} (hn : Newest d name generation) : Newest d' name generation := by
  refine ⟨(mem_of_lookup_eq (h name generation hn.parse)).mpr hn.mem, hn.parse, ?_⟩
  intro other hother hne g hg
  exact hn.lt other ((mem_of_lookup_eq (h other g hg)).mp hother) hne g hg

theorem AgreeOnSnapshots.symm {d d' : SlotDirectory} (h : AgreeOnSnapshots d d') :
    AgreeOnSnapshots d' d := fun name generation hparse => (h name generation hparse).symm

theorem AgreeOnSnapshots.maxGeneration_le {d d' : SlotDirectory} (h : AgreeOnSnapshots d d') :
    maxGeneration d ≤ maxGeneration d' := by
  by_cases hzero : maxGeneration d = 0
  · omega
  · obtain ⟨name, hmem, hparse⟩ := maxGeneration_mem hzero
    exact le_maxGeneration ((mem_of_lookup_eq (h name _ hparse)).mpr hmem) hparse

theorem AgreeOnSnapshots.maxGeneration_eq {d d' : SlotDirectory} (h : AgreeOnSnapshots d d') :
    maxGeneration d' = maxGeneration d := le_antisymm h.symm.maxGeneration_le h.maxGeneration_le

theorem AgreeOnSnapshots.snapshot {d d' : SlotDirectory} (h : AgreeOnSnapshots d d') {slot : Slot}
    {snapshot : ValidatedSnapshot} (hs : (V.probeSlot d slot).snapshot = some snapshot) :
    (V.probeSlot d' slot).snapshot = some snapshot := by
  obtain ⟨name, generation, hn, hread⟩ := probeSlot_snapshot hs
  rw [probeSlot_of_newest (h.newest hn), readSnapshot_congr (h name generation hn.parse), hread]
  rfl

theorem AgreeOnSnapshots.snapshot_eq {d d' : SlotDirectory} (h : AgreeOnSnapshots d d')
    (slot : Slot) : (V.probeSlot d' slot).snapshot = (V.probeSlot d slot).snapshot :=
  Option.ext fun _ => ⟨h.symm.snapshot, h.snapshot⟩

theorem AgreeOnSnapshots.empty_eq {d d' : SlotDirectory} (h : AgreeOnSnapshots d d')
    (slot : Slot) : (V.probeSlot d' slot).empty = (V.probeSlot d slot).empty := by
  rw [Bool.eq_iff_iff, probeSlot_empty_iff, probeSlot_empty_iff, h.maxGeneration_eq]

theorem loadLocked_congr {before after : StoreFiles}
    (h : ∀ slot, AgreeOnSnapshots (before.directory slot) (after.directory slot)) :
    V.loadLocked after = V.loadLocked before := by
  have ha := h .a
  have hb := h .b
  simp only [StoreFiles.directory] at ha hb
  simp only [loadLocked, probeSlot_maxSeen, ha.snapshot_eq, hb.snapshot_eq, ha.empty_eq,
    hb.empty_eq, ha.maxGeneration_eq, hb.maxGeneration_eq]

theorem agreeOnSnapshots_of_same {d d' : SlotDirectory} (h : SameSnapshots d d') :
    AgreeOnSnapshots d d' := fun name generation hparse =>
  h name (by
    cases htemp : isSnapshotTempName name with
    | false => rfl
    | true => simp [parse_eq_none_of_temp htemp] at hparse)

theorem SameFiles.loadLocked_eq {before after : StoreFiles} (h : SameFiles before after) :
    V.loadLocked after = V.loadLocked before := loadLocked_congr fun slot => agreeOnSnapshots_of_same (h slot)

end SavedHostStore

end Netcatty.Vault
