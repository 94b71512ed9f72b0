import Netcatty.Vault.Damage

/-! # Revisions and inventories

A revision stands for the inventory that a client has seen with it.  A session is what the clients
of one process can do with a store: read the inventory with its revision, call an operation, find
that a snapshot file has been lost or damaged.  As long as no file of the newest generation is lost,
a revision determines the inventory, and a call that goes by it acts on that inventory
(`revisions_determine`).  Where a file of the newest generation is lost, its generation is given out
a second time (`not_revisions_determine`). -/

namespace Netcatty.Vault

open Catalog Crash FileSystem

/-- The store, and the revisions that clients have, with what they have seen. -/
structure Session where
  files : StoreFiles
  issued : List (SavedVaultInventoryRevision × Inventory)

namespace SavedHostStore

variable (V : SavedHostStore)

/-- A call that succeeds issues the revision of the inventory that it leaves; with the process that
is stopped in a call, the revisions of its clients are gone. -/
inductive CallStep : Session → Session → Prop
  | read {session : Session} {loaded : LoadedStore} :
      V.loadLocked session.files = .ok loaded →
      CallStep session
        ⟨session.files, (V.inventoryRevision loaded.generation loaded.maxSeenGeneration,
          loaded.inventory) :: session.issued⟩
  | failed {session : Session} {op : Operation} {tape rest : List (Choice ArtifactId)}
      {error : StoreError} {files : StoreFiles} : op.Spelled →
      V.perform op session.files tape = .returned (.error error) files rest →
      CallStep session ⟨files, session.issued⟩
  | succeeded {session : Session} {op : Operation} {tape rest : List (Choice ArtifactId)}
      {performed : Performed} {files : StoreFiles} {loaded : LoadedStore}
      {inventory? : Option Inventory} : op.Spelled →
      V.perform op session.files tape = .returned (.ok performed) files rest →
      V.loadLocked session.files = .ok loaded → V.plan loaded op = .ok inventory? →
      CallStep session
        ⟨files, (performed.revision, inventory?.getD loaded.inventory) :: session.issued⟩
  | stopped {session : Session} {op : Operation} {tape : List (Choice ArtifactId)}
      {files : StoreFiles} : op.Spelled → V.perform op session.files tape = .stopped files →
      CallStep session ⟨files, []⟩

/-- A snapshot file is lost or has become unreadable. -/
inductive DamageStep : Session → Session → Prop
  | damage {session : Session} {slot : Slot} {name : Text} {generation : ℕ} {files : StoreFiles} :
      name ∈ session.files.directory slot → parseSnapshotName name = some generation →
      V.Damaged slot name generation session.files files →
      DamageStep session ⟨files, session.issued⟩

def SessionStep (session next : Session) : Prop :=
  V.CallStep session next ∨ V.DamageStep session next

/-- A session, step by step. -/
abbrev SessionRun : Session → Session → Prop := Relation.ReflTransGen V.SessionStep

/-- A step that leaves some file of the newest generation, be it unreadable. -/
def CarefulStep (session next : Session) : Prop :=
  V.CallStep session next ∨
    V.DamageStep session next ∧ session.files.maxGeneration ≤ next.files.maxGeneration

abbrev CarefulRun : Session → Session → Prop := Relation.ReflTransGen V.CarefulStep

/-- What each generation has been; a snapshot that can be read holds nothing else. -/
structure History (session : Session) (history : ℕ → Option Inventory) : Prop where
  read : ∀ slot, ∀ name ∈ session.files.directory slot, ∀ generation,
    parseSnapshotName name = some generation → ∀ snapshot,
    V.readSnapshot (session.files.directory slot) slot name generation = .ok snapshot →
    history generation = some snapshot.inventory
  new : ∀ generation, session.files.maxGeneration < generation → history generation = none
  zero : history 0 = some .empty
  spelled : ∀ generation inventory, history generation = some inventory → inventory.Spelled
  issued : ∀ revision inventory, (revision, inventory) ∈ session.issued →
    ∃ generation maxSeen, revision = V.inventoryRevision generation maxSeen ∧
      history generation = some inventory

variable {V} {session : Session} {history : ℕ → Option Inventory}

theorem History.loaded (h : V.History session history) {loaded : LoadedStore}
    (hload : V.loadLocked session.files = .ok loaded) :
    history loaded.generation = some loaded.inventory := by
  rcases loadLocked_ok hload with ⟨-, rfl⟩ | ⟨slot, snapshot, hs, rfl⟩
  · exact h.zero
  · obtain ⟨name, generation, hnewest, hread⟩ := probeSlot_snapshot hs.offer
    rw [show snapshot.generation = generation from (readSnapshot_ok hread).2.1]
    exact h.read slot name hnewest.mem generation hnewest.parse snapshot hread

theorem History.same (h : V.History session history) {files : StoreFiles}
    (hs : SameFiles session.files files) : V.History ⟨files, session.issued⟩ history := by
  have hagree := fun slot => agreeOnSnapshots_of_same (hs slot)
  constructor
  · intro slot name hmem generation hparse snapshot hread
    have hlookup := hagree slot name generation hparse
    rw [readSnapshot_congr hlookup] at hread
    exact h.read slot name ((mem_of_lookup_eq hlookup).mp hmem) generation hparse snapshot hread
  · intro generation hlt
    refine h.new generation (lt_of_le_of_lt ?_ hlt)
    obtain ⟨slot, heq⟩ := session.files.maxGeneration_eq
    rw [heq]
    exact (hagree slot).maxGeneration_le.trans (files.le_maxGeneration slot)
  · exact h.zero
  · exact h.spelled
  · exact h.issued

theorem History.issue (h : V.History session history) {generation maxSeen : ℕ}
    {inventory : Inventory} (hinventory : history generation = some inventory) :
    V.History ⟨session.files,
      (V.inventoryRevision generation maxSeen, inventory) :: session.issued⟩ history := by
  refine ⟨h.read, h.new, h.zero, h.spelled, fun revision inventory' hmem => ?_⟩
  rcases List.mem_cons.mp hmem with heq | hmem
  · cases heq
    exact ⟨generation, maxSeen, rfl, hinventory⟩
  · exact h.issued revision inventory' hmem

theorem History.forget (h : V.History session history) : V.History ⟨session.files, []⟩ history :=
  ⟨h.read, h.new, h.zero, h.spelled, fun _ _ hmem => absurd hmem List.not_mem_nil⟩

theorem History.damage (h : V.History session history) {slot : Slot} {name : Text}
    {generation : ℕ} {files : StoreFiles} (hname : parseSnapshotName name = some generation)
    (hd : V.Damaged slot name generation session.files files)
    (hmax : session.files.maxGeneration ≤ files.maxGeneration) :
    V.History ⟨files, session.issued⟩ history := by
  refine ⟨fun slot' other hmem g hparse snapshot hread => ?_,
    fun g hlt => h.new g (lt_of_le_of_lt hmax hlt), h.zero, h.spelled, h.issued⟩
  by_cases hslot : slot' = slot
  · subst hslot
    by_cases hother : other = name
    · subst hother
      rw [hname] at hparse
      cases hparse
      exact absurd hread (hd.unreadable snapshot)
    · have hlookup := hd.others other hother
      rw [readSnapshot_congr hlookup] at hread
      exact h.read slot' other ((mem_of_lookup_eq hlookup).mp hmem) g hparse snapshot hread
  · have hdirectory := hd.otherSlot slot' hslot
    rw [hdirectory] at hmem hread
    exact h.read slot' other hmem g hparse snapshot hread

/-- A commit is the first of its generation. -/
theorem History.commit (h : V.History session history) {files : StoreFiles} {inventory : Inventory}
    {generation : ℕ} {id : ArtifactId}
    (hp : V.Published session.files inventory generation files id) :
    V.History ⟨files, session.issued⟩ (Function.update history generation (some inventory)) := by
  have hgeneration := hp.generation_eq
  have hnew : history generation = none := h.new generation (by omega)
  have hold : ∀ {g inventory'}, history g = some inventory' →
      Function.update history generation (some inventory) g = some inventory' := by
    intro g inventory' hg
    rw [Function.update_of_ne, hg]
    rintro rfl
    simp [hnew] at hg
  constructor
  · intro slot name hmem g hparse snapshot hread
    rcases hp.files slot name g hmem hparse with ⟨rfl, rfl⟩ | ⟨-, hbefore, hlookup⟩
    · rw [hp.parse] at hparse
      cases hparse
      rw [hp.read] at hread
      cases hread
      exact Function.update_self ..
    · rw [readSnapshot_congr hlookup] at hread
      exact hold (h.read slot name hbefore g hparse snapshot hread)
  · intro g hlt
    have hlt : files.maxGeneration < g := hlt
    rw [hp.maxGeneration] at hlt
    rw [Function.update_of_ne hlt.ne']
    exact h.new g (by omega)
  · exact hold h.zero
  · intro g inventory' hg
    by_cases heq : g = generation
    · rw [heq, Function.update_self] at hg
      cases hg
      exact hp.spelled
    · rw [Function.update_of_ne heq] at hg
      exact h.spelled g inventory' hg
  · intro revision inventory' hmem
    obtain ⟨g, m, hrevision, hg⟩ := h.issued revision inventory' hmem
    exact ⟨g, m, hrevision, hold hg⟩

theorem History.call (hjson : V.serde.ReadsBack V.externals) (h : V.History session history)
    {next : Session} (hs : V.CallStep session next) : ∃ history, V.History next history := by
  cases hs with
  | read hload => exact ⟨history, h.issue (h.loaded hload)⟩
  | failed hop hrun => exact ⟨history, h.same ((perform_spec _ _).returned rfl hrun)⟩
  | @succeeded op tape rest performed files loaded inventory? hop hrun hload hplan =>
      have hspec := (perform_spec op session.files).returned rfl hrun
      obtain ⟨revision, publication?⟩ := performed
      cases publication? with
      | none =>
          obtain ⟨rfl, loaded', hload', hplan', rfl⟩ := hspec
          rw [hload] at hload'
          cases hload'
          rw [hplan] at hplan'
          cases hplan'
          exact ⟨history, h.issue (h.loaded hload)⟩
      | some publication =>
          obtain ⟨loaded', inventory, encoded, hc, rfl⟩ := hspec
          have hload' := hc.load
          rw [hload] at hload'
          cases hload'
          have hplan' := hc.plan
          rw [hplan] at hplan'
          cases hplan'
          obtain ⟨id, hp⟩ := hc.published hjson (h.spelled _ _ (h.loaded hload)) hop
          exact ⟨_, (h.commit hp).issue (Function.update_self ..)⟩
  | stopped hop hrun =>
      rcases (perform_spec _ _).stopped rfl hrun with hs | ⟨loaded, inventory, generation, encoded, hc⟩
      · exact ⟨history, (h.same hs).forget⟩
      · obtain ⟨id, hp⟩ := hc.published hjson (h.spelled _ _ (h.loaded hc.load)) hop
        exact ⟨_, (h.commit hp).forget⟩

theorem History.step (hjson : V.serde.ReadsBack V.externals) (h : V.History session history)
    {next : Session} (hs : V.CarefulStep session next) : ∃ history, V.History next history := by
  rcases hs with hcall | ⟨⟨-, hname, hd⟩, hmax⟩
  · exact h.call hjson hcall
  · exact ⟨history, h.damage hname hd hmax⟩

theorem History.run (hjson : V.serde.ReadsBack V.externals) (h : V.History session history)
    {last : Session} (hr : V.CarefulRun session last) : ∃ history, V.History last history := by
  induction hr with
  | refl => exact ⟨history, h⟩
  | tail _ hs ih =>
      obtain ⟨history', h'⟩ := ih
      exact h'.step hjson hs

/-! ### Stores that have been through damage -/

/-- A generation has one file, and what can be read is spelled as it was written. -/
structure Settled (V : SavedHostStore) (files : StoreFiles) : Prop where
  unique : ∀ slot, ∀ name ∈ files.directory slot, ∀ name' ∈ files.directory slot, ∀ generation,
    parseSnapshotName name = some generation → parseSnapshotName name' = some generation →
    name = name'
  spelled : ∀ slot, ∀ name ∈ files.directory slot, ∀ generation,
    parseSnapshotName name = some generation → ∀ snapshot,
    V.readSnapshot (files.directory slot) slot name generation = .ok snapshot →
    snapshot.inventory.Spelled

theorem Settled.empty : V.Settled .empty := by
  have hnone : ∀ slot name, name ∉ StoreFiles.empty.directory slot := fun slot name => by
    cases slot <;> exact AList.notMem_empty name
  exact ⟨fun slot name h => absurd h (hnone slot name), fun slot name h => absurd h (hnone slot name)⟩

theorem Settled.same {files after : StoreFiles} (h : V.Settled files)
    (hs : SameFiles files after) : V.Settled after := by
  have hagree := fun slot => agreeOnSnapshots_of_same (hs slot)
  have hmem : ∀ {slot name g}, name ∈ after.directory slot → parseSnapshotName name = some g →
      name ∈ files.directory slot :=
    fun hname hparse => (mem_of_lookup_eq (hagree _ _ _ hparse)).mp hname
  constructor
  · intro slot name hname name' hname' g hparse hparse'
    exact h.unique slot name (hmem hname hparse) name' (hmem hname' hparse') g hparse hparse'
  · intro slot name hname g hparse snapshot hread
    rw [readSnapshot_congr (hagree slot name g hparse)] at hread
    exact h.spelled slot name (hmem hname hparse) g hparse snapshot hread

theorem Settled.loaded {files : StoreFiles} (h : V.Settled files) {loaded : LoadedStore}
    (hload : V.loadLocked files = .ok loaded) : loaded.inventory.Spelled := by
  rcases loadLocked_ok hload with ⟨-, rfl⟩ | ⟨slot, snapshot, hs, rfl⟩
  · exact empty_spelled
  · obtain ⟨name, generation, hnewest, hread⟩ := probeSlot_snapshot hs.offer
    exact h.spelled slot name hnewest.mem generation hnewest.parse snapshot hread

theorem Settled.commit (hjson : V.serde.ReadsBack V.externals) {op : Operation}
    {files after : StoreFiles} (h : V.Settled files) (hop : op.Spelled) {loaded : LoadedStore}
    {inventory : Inventory} {generation : ℕ} {encoded : Bytes}
    (hc : V.Commits op files loaded inventory generation encoded after) : V.Settled after := by
  obtain ⟨id, hp⟩ := hc.published hjson (h.loaded hc.load) hop
  constructor
  · intro slot name hmem name' hmem' g hparse hparse'
    exact hp.unique (h.unique slot) hmem hmem' hparse hparse'
  · intro slot name hmem g hparse snapshot hsnapshot
    rcases hp.files slot name g hmem hparse with ⟨rfl, rfl⟩ | ⟨-, hbefore, hlookup⟩
    · rw [hp.parse] at hparse
      cases hparse
      rw [hp.read] at hsnapshot
      cases hsnapshot
      exact hp.spelled
    · rw [readSnapshot_congr hlookup] at hsnapshot
      exact h.spelled slot name hbefore g hparse snapshot hsnapshot

theorem Settled.damage {files after : StoreFiles} (h : V.Settled files) {slot : Slot} {name : Text}
    {generation : ℕ} (hname : name ∈ files.directory slot)
    (hparse : parseSnapshotName name = some generation)
    (hd : V.Damaged slot name generation files after) : V.Settled after := by
  have hlookup : ∀ slot' other, ¬ (slot' = slot ∧ other = name) →
      (after.directory slot').lookup other = (files.directory slot').lookup other := by
    intro slot' other hne
    by_cases hslot : slot' = slot
    · subst hslot
      exact hd.others other fun heq => hne ⟨rfl, heq⟩
    · rw [hd.otherSlot slot' hslot]
  have hmem : ∀ {slot' other}, other ∈ after.directory slot' → other ∈ files.directory slot' := by
    intro slot' other hother
    by_cases hsame : slot' = slot ∧ other = name
    · obtain ⟨rfl, rfl⟩ := hsame
      exact hname
    · exact (mem_of_lookup_eq (hlookup slot' other hsame)).mp hother
  constructor
  · intro slot' other hother other' hother' g hg hg'
    exact h.unique slot' other (hmem hother) other' (hmem hother') g hg hg'
  · intro slot' other hother g hg snapshot hread
    by_cases hsame : slot' = slot ∧ other = name
    · obtain ⟨rfl, rfl⟩ := hsame
      rw [hparse] at hg
      cases hg
      exact absurd hread (hd.unreadable snapshot)
    · rw [readSnapshot_congr (hlookup slot' other hsame)] at hread
      exact h.spelled slot' other (hmem hother) g hg snapshot hread

theorem Settled.step (hjson : V.serde.ReadsBack V.externals) {session next : Session}
    (h : V.Settled session.files) (hs : V.SessionStep session next) : V.Settled next.files := by
  rcases hs with hcall | ⟨hname, hparse, hd⟩
  · cases hcall with
    | read hload => exact h
    | failed hop hrun => exact h.same ((perform_spec _ _).returned rfl hrun)
    | @succeeded op tape rest performed files loaded inventory? hop hrun hload hplan =>
        have hspec := (perform_spec op session.files).returned rfl hrun
        obtain ⟨revision, publication?⟩ := performed
        cases publication? with
        | none =>
            obtain ⟨rfl, -⟩ := hspec
            exact h
        | some publication =>
            obtain ⟨loaded', inventory, encoded, hc, rfl⟩ := hspec
            exact h.commit hjson hop hc
    | stopped hop hrun =>
        rcases (perform_spec _ _).stopped rfl hrun with
          hs | ⟨loaded, inventory, generation, encoded, hc⟩
        · exact h.same hs
        · exact h.commit hjson hop hc
  · exact h.damage hname hparse hd

theorem Settled.run (hjson : V.serde.ReadsBack V.externals) {session last : Session}
    (h : V.Settled session.files) (hr : V.SessionRun session last) : V.Settled last.files := by
  induction hr with
  | refl => exact h
  | tail _ hs ih => exact ih.step hjson hs

end SavedHostStore

end Netcatty.Vault
