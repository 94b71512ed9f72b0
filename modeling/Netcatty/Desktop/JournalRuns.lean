import Netcatty.Desktop.JournalText

/-! # Runs of the journal

A call moves the journal along the table of transitions (`transitionIsValid`), so that a generation
is never behind the one that it follows (`Past`).  `Keeps` is the invariant of a run with a promise,
the generation with which the last marking call returned: the journal loads, and no slot holds a
generation that is behind the promise. -/

namespace Netcatty.Desktop

open Crash FileSystem
open Secret (Uuid)
open Vault (SavedVaultGraphCommitment Slot Text isOpaqueId)

/-! ### Entries that move on -/

/-- The owner is the same, and what is known stays known. -/
def EntryPast (entry entry' : LegacyImportTransactionEntry) : Prop :=
  entry.owner = entry'.owner ∧ (entry.previous = .unknown ∨ entry = entry')

theorem EntryPast.refl (entry : LegacyImportTransactionEntry) : EntryPast entry entry :=
  ⟨rfl, .inr rfl⟩

theorem EntryPast.trans {e₁ e₂ e₃ : LegacyImportTransactionEntry} (h₁ : EntryPast e₁ e₂)
    (h₂ : EntryPast e₂ e₃) : EntryPast e₁ e₃ := by
  refine ⟨h₁.1.trans h₂.1, ?_⟩
  rcases h₁.2 with h | rfl
  · exact .inl h
  · exact h₂.2

def LegacyImportTransactionPhase.reaches :
    LegacyImportTransactionPhase → LegacyImportTransactionPhase → Bool
  | .preparing, _ => true
  | .blobsDurable, phase => phase ≠ .preparing
  | .active, phase => phase ≠ .preparing && phase ≠ .blobsDurable
  | .vaultDurable, phase => phase = .vaultDurable
  | .rollbackTargetsRestored, phase => phase = .rollbackTargetsRestored

theorem reaches_trans {p₁ p₂ p₃ : LegacyImportTransactionPhase} (h₁ : p₁.reaches p₂ = true)
    (h₂ : p₂.reaches p₃ = true) : p₁.reaches p₃ = true := by
  revert h₁ h₂
  cases p₁ <;> cases p₂ <;> cases p₃ <;> decide

/-- A generation of the same transaction that is not behind. -/
structure Past (envelope envelope' : JournalEnvelope) : Prop where
  transactionId : envelope.transactionId = envelope'.transactionId
  before : envelope.beforeGraphCommitment = envelope'.beforeGraphCommitment
  after : envelope.afterGraphCommitment = envelope'.afterGraphCommitment
  phase : envelope.phase.reaches envelope'.phase = true
  entries : List.Forall₂ EntryPast envelope.entries envelope'.entries

theorem forall₂_entryPast_refl (entries : List LegacyImportTransactionEntry) :
    List.Forall₂ EntryPast entries entries := by
  induction entries with
  | nil => exact .nil
  | cons entry entries ih => exact .cons (EntryPast.refl entry) ih

theorem forall₂_entryPast_trans {l₁ l₂ l₃ : List LegacyImportTransactionEntry}
    (h₁ : List.Forall₂ EntryPast l₁ l₂) (h₂ : List.Forall₂ EntryPast l₂ l₃) :
    List.Forall₂ EntryPast l₁ l₃ := by
  induction h₁ generalizing l₃ with
  | nil => exact h₂
  | cons h _ ih =>
      cases h₂ with
      | cons h' hrest => exact .cons (h.trans h') (ih hrest)

theorem Past.trans {e₁ e₂ e₃ : JournalEnvelope} (h₁ : Past e₁ e₂) (h₂ : Past e₂ e₃) :
    Past e₁ e₃ :=
  ⟨h₁.transactionId.trans h₂.transactionId, h₁.before.trans h₂.before, h₁.after.trans h₂.after,
    reaches_trans h₁.phase h₂.phase, forall₂_entryPast_trans h₁.entries h₂.entries⟩

/-- Entries of the same owners, of which those that are known have not changed. -/
theorem forall₂_entryPast_of_zip {older newer : List LegacyImportTransactionEntry}
    (howners : older.map (·.owner) = newer.map (·.owner))
    (h : ∀ pair ∈ older.zip newer,
      pair.1.previous = .unknown ∨ pair.1.previous = pair.2.previous) :
    List.Forall₂ EntryPast older newer := by
  induction older generalizing newer with
  | nil =>
      cases newer with
      | nil => exact .nil
      | cons entry newer => cases howners
  | cons entry older ih =>
      cases newer with
      | nil => cases howners
      | cons entry' newer =>
          obtain ⟨howner, hrest⟩ := List.cons.inj howners
          rw [List.zip_cons_cons, List.forall_mem_cons] at h
          refine .cons ⟨howner, ?_⟩ (ih hrest h.2)
          rcases h.1 with hunknown | hsame
          · exact .inl hunknown
          · exact .inr (LegacyImportTransactionEntry.ext_owner howner hsame)

theorem entries_past_of_activate {older newer : List LegacyImportTransactionEntry}
    (howners : older.map (·.owner) = newer.map (·.owner))
    (h : preparingEntriesActivate older newer = true) : List.Forall₂ EntryPast older newer := by
  apply forall₂_entryPast_of_zip howners
  intro pair hpair
  have hentry := List.all_eq_true.mp h pair hpair
  simp only [Bool.and_eq_true, Bool.or_eq_true, decide_eq_true_eq] at hentry
  exact hentry.2

theorem entries_past_of_advance {older newer : List LegacyImportTransactionEntry}
    (howners : older.map (·.owner) = newer.map (·.owner))
    (h : preparingEntriesAdvanceOnce older newer = true) : List.Forall₂ EntryPast older newer := by
  apply forall₂_entryPast_of_zip howners
  intro pair hpair
  rw [preparingEntriesAdvanceOnce, Bool.and_eq_true] at h
  have hentry := List.all_eq_true.mp h.1 pair hpair
  simp only [Bool.or_eq_true, decide_eq_true_eq] at hentry
  exact hentry.symm

/-- The table of transitions only moves on. -/
theorem past_of_transition {blobs : Bool} {p p' : LegacyImportTransactionPhase}
    {l l' : List LegacyImportTransactionEntry} (howners : l.map (·.owner) = l'.map (·.owner))
    (h : transitionIsValid blobs p p' l l' = true) :
    p.reaches p' = true ∧ List.Forall₂ EntryPast l l' := by
  have hsame : l = l' → List.Forall₂ EntryPast l l' := by
    rintro rfl
    exact forall₂_entryPast_refl l
  cases p <;> cases p' <;> simp only [transitionIsValid, Bool.and_eq_true, decide_eq_true_eq,
    Bool.false_eq_true] at h
  case preparing.preparing => exact ⟨rfl, entries_past_of_advance howners h⟩
  case preparing.active => exact ⟨rfl, entries_past_of_activate howners h.2⟩
  case blobsDurable.active => exact ⟨rfl, entries_past_of_activate howners h.2⟩
  case preparing.blobsDurable => exact ⟨rfl, hsame h.2⟩
  case blobsDurable.blobsDurable => exact ⟨rfl, hsame h.2⟩
  all_goals exact ⟨rfl, hsame h⟩

theorem Precedes.past {older newer : JournalEnvelope} (h : Precedes older newer) :
    Past older newer := by
  obtain ⟨hphase, hentries⟩ := past_of_transition h.owners h.transition
  exact ⟨h.transactionId, h.before, h.after, hphase, hentries⟩

/-! ### The entries that a call writes -/

theorem advanceOnce_modify {previous : LegacyPreviousCredentialState} (hprevious : previous ≠ .unknown)
    {owner : LegacyImportCredentialOwner} {entries : List LegacyImportTransactionEntry}
    {entry : LegacyImportTransactionEntry} (hfind : entries.find? (·.owner = owner) = some entry)
    (hunknown : entry.previous = .unknown) :
    preparingEntriesAdvanceOnce entries
        (entries.modify (entries.findIdx (·.owner = owner)) (·.record previous)) = true ∧
      entries.map (·.owner) =
        (entries.modify (entries.findIdx (·.owner = owner)) (·.record previous)).map (·.owner) := by
  have hsame : ∀ l : List LegacyImportTransactionEntry, ∀ pair ∈ l.zip l, pair.1 = pair.2 := by
    intro l
    induction l with
    | nil => simp
    | cons a l ih => simpa using ih
  induction entries with
  | nil => cases hfind
  | cons a entries ih =>
      by_cases ha : a.owner = owner
      · rw [List.find?_cons_of_pos (by simpa using ha)] at hfind
        cases hfind
        rw [List.findIdx_cons]
        simp only [ha, decide_true, cond_true, List.modify_zero_cons, preparingEntriesAdvanceOnce,
          List.zip_cons_cons, List.all_cons, List.countP_cons, Bool.and_eq_true, decide_eq_true_eq,
          Bool.or_eq_true, List.all_eq_true]
        refine ⟨⟨⟨.inr hunknown, fun pair hpair => .inl ?_⟩, ?_⟩, ?_⟩
        · rw [hsame entries pair hpair]
        · have hnone : (entries.zip entries).countP
              (fun pair => decide (pair.1.previous ≠ pair.2.previous)) = 0 := by
            rw [List.countP_eq_zero]
            intro pair hpair
            simp [hsame entries pair hpair]
          rw [hnone, hunknown]
          simp [Ne.symm hprevious]
        · simp
      · rw [List.find?_cons_of_neg (by simpa using ha)] at hfind
        obtain ⟨hadvance, howners⟩ := ih hfind
        rw [List.findIdx_cons]
        simp only [ha, decide_false, cond_false, List.modify_succ_cons]
        simp only [preparingEntriesAdvanceOnce, Bool.and_eq_true, decide_eq_true_eq] at hadvance ⊢
        rw [List.zip_cons_cons, List.all_cons, List.countP_cons, hadvance.1, hadvance.2]
        exact ⟨by simp, by rw [List.map_cons, List.map_cons, howners]⟩

theorem supplyPrevious_known {entries : List LegacyImportTransactionEntry}
    {supplied states supplied' : List PreviousState} (hknown : ∀ state ∈ supplied, state.2 ≠ .unknown)
    (h : supplyPrevious entries supplied states = .ok supplied') :
    ∀ state ∈ supplied', state.2 ≠ .unknown := by
  induction states generalizing supplied with
  | nil =>
      cases h
      exact hknown
  | cons state states ih =>
      rw [supplyPrevious] at h
      split_ifs at h with hunknown
      apply ih _ h
      intro other hother
      rcases List.mem_cons.mp hother with rfl | hother
      · exact hunknown
      · exact hknown other hother

theorem activatedEntries_ok {supplied : List PreviousState}
    (hknown : ∀ state ∈ supplied, state.2 ≠ .unknown) {entries entries' : List LegacyImportTransactionEntry}
    (h : activatedEntries supplied entries = .ok entries') :
    entries.map (·.owner) = entries'.map (·.owner) ∧
      preparingEntriesActivate entries entries' = true ∧
      ∀ entry ∈ entries', entry.previous ≠ .unknown := by
  induction entries generalizing supplied entries' with
  | nil =>
      cases h
      exact ⟨rfl, rfl, by simp⟩
  | cons entry entries ih =>
      rw [activatedEntries] at h
      cases hfind : supplied.find? (·.1 = entry.owner) with
      | none =>
          rw [hfind] at h
          cases h
      | some state =>
          rw [hfind] at h
          have hstate := hknown state (List.mem_of_find?_eq_some hfind)
          by_cases hchanged : entry.previous ≠ .unknown ∧ entry.previous ≠ state.2
          · simp only [if_pos hchanged] at h
            cases h
          · simp only [if_neg hchanged] at h
            obtain ⟨rest, hrest, h⟩ := bind_eq_ok.mp h
            cases h
            obtain ⟨howners, hactivate, hall⟩ :=
              ih (fun other hother => hknown other (List.mem_of_mem_filter hother)) hrest
            refine ⟨by simp [howners], ?_, ?_⟩
            · rw [preparingEntriesActivate, List.zip_cons_cons, List.all_cons, Bool.and_eq_true]
              refine ⟨?_, hactivate⟩
              rw [not_and_or, not_not, not_not] at hchanged
              simp only [Bool.and_eq_true, Bool.or_eq_true, decide_eq_true_eq]
              exact ⟨hstate, hchanged⟩
            · rw [List.forall_mem_cons]
              exact ⟨hstate, hall⟩

theorem completedEntries_ok {entries entries' : List LegacyImportTransactionEntry}
    {states : List PreviousState} (h : completedEntries entries states = .ok entries') :
    entries.map (·.owner) = entries'.map (·.owner) ∧
      preparingEntriesActivate entries entries' = true ∧
      ∀ entry ∈ entries', entry.previous ≠ .unknown := by
  unfold completedEntries at h
  obtain ⟨supplied, hsupplied, h⟩ := bind_eq_ok.mp h
  split at h
  · cases h
  · exact activatedEntries_ok (supplyPrevious_known (by simp) hsupplied) h

/-! ### The invariant -/

/-- The journal loads, and no slot holds a generation that is behind the promise. -/
def Keeps (S : JournalSerde) (promise : Option JournalEnvelope) (d : JournalDirectory) : Prop :=
  (∃ loaded, loadEnvelope S d = .ok loaded) ∧
    ∀ promised, promise = some promised → (∃ envelope, loadEnvelope S d = .ok (some envelope)) ∧
      ∀ slot envelope, probeSlot S d slot = .valid envelope → Past promised envelope

/-- Each promise is kept from the one directory to the other. -/
def Moves (S : JournalSerde) (d₀ d : JournalDirectory) : Prop :=
  ∀ promise, Keeps S promise d₀ → Keeps S promise d

/-- What a call on a handle may do: nothing, unless the handle is what the journal loads. -/
def OnHandle (S : JournalSerde) (handle : JournalEnvelope) (R : JournalDirectory → Prop)
    (d₀ d : JournalDirectory) : Prop :=
  SameSlots d₀ d ∨ loadEnvelope S d₀ = .ok (some handle) ∧ R d

abbrev Acts (S : JournalSerde) (handle : JournalEnvelope) (d₀ : JournalDirectory) :
    JournalDirectory → Prop :=
  OnHandle S handle (Moves S d₀) d₀

/-- Both slots hold a generation that is not behind. -/
def Both (S : JournalSerde) (promised : JournalEnvelope) (d : JournalDirectory) : Prop :=
  ∀ slot, ∃ envelope, probeSlot S d slot = .valid envelope ∧ Past promised envelope

/-- An active generation knows every state before the transaction. -/
def JournalEnvelope.Known (envelope : JournalEnvelope) : Prop :=
  envelope.phase = .active → ∀ entry ∈ envelope.entries, entry.previous ≠ .unknown

section Invariant

variable {S : JournalSerde} {d d₀ d₁ : JournalDirectory} {handle next : JournalEnvelope}
  {phase : LegacyImportTransactionPhase} {entries : List LegacyImportTransactionEntry}
  {promise : Option JournalEnvelope}

theorem SameSlots.loadEnvelope_eq (h : SameSlots d₀ d) : loadEnvelope S d = loadEnvelope S d₀ := by
  unfold loadEnvelope
  rw [probeSlot_congr (h .a), probeSlot_congr (h .b)]

theorem SameSlots.moves (h : SameSlots d₀ d) : Moves S d₀ d := by
  intro promise hkeeps
  unfold Keeps at hkeeps ⊢
  rw [h.loadEnvelope_eq]
  refine ⟨hkeeps.1, fun promised hpromised => ⟨(hkeeps.2 promised hpromised).1, ?_⟩⟩
  intro slot envelope hslot
  rw [probeSlot_congr (h slot)] at hslot
  exact (hkeeps.2 promised hpromised).2 slot envelope hslot

theorem Moves.trans (h : Moves S d₀ d₁) (h' : Moves S d₁ d) : Moves S d₀ d :=
  fun promise hkeeps => h' promise (h promise hkeeps)

theorem OnHandle.same {R : JournalDirectory → Prop} (d : JournalDirectory) (h : d = d₀) :
    OnHandle S handle R d₀ d :=
  .inl (h ▸ SameSlots.refl _)

theorem OnHandle.moves (h : Acts S handle d₀ d) : Moves S d₀ d :=
  h.elim SameSlots.moves fun h => h.2

/-- What is loaded once a generation is in its slot. -/
theorem Publishes.load (hload : loadEnvelope S d₀ = .ok (some handle))
    (hnext : NextOf S handle phase entries next) (h : Publishes S next d₀ d) :
    loadEnvelope S d = .ok (some next) ∧ probeSlot S d next.slot.other = .valid handle := by
  have hother : probeSlot S d next.slot.other = .valid handle := by
    rw [probeSlot_congr h.other, hnext.slot, other_other]
    exact (probeSlot_of_loadEnvelope hload).1
  refine ⟨loadEnvelope_some_iff.mpr ⟨next.slot, h.probe, ?_⟩, hother⟩
  intro older holder
  cases hother.symm.trans holder
  exact hnext.precedes

theorem Publishes.moves (hload : loadEnvelope S d₀ = .ok (some handle))
    (hnext : NextOf S handle phase entries next) (h : Publishes S next d₀ d) : Moves S d₀ d := by
  intro promise hkeeps
  obtain ⟨hloaded, hother⟩ := h.load hload hnext
  refine ⟨⟨_, hloaded⟩, fun promised hpromised => ⟨⟨_, hloaded⟩, ?_⟩⟩
  have hpast := (hkeeps.2 promised hpromised).2 _ _ (probeSlot_of_loadEnvelope hload).1
  intro slot envelope hslot
  by_cases hne : slot = next.slot
  · subst hne
    cases h.probe.symm.trans hslot
    exact hpast.trans hnext.precedes.past
  · obtain rfl := Slot.eq_other_of_ne hne
    cases hother.symm.trans hslot
    exact hpast

/-- While the older slot is empty, the journal loads as before. -/
theorem Sets.moves (hload : loadEnvelope S d₀ = .ok (some handle))
    (h : Sets handle.slot.other none d₀ d) :
    loadEnvelope S d = .ok (some handle) ∧ Moves S d₀ d := by
  have hmissing : probeSlot S d handle.slot.other = .missing := by
    unfold probeSlot
    rw [h.file]
  have hkept : probeSlot S d handle.slot = .valid handle := by
    have hother := h.other
    rw [other_other] at hother
    rw [probeSlot_congr hother]
    exact (probeSlot_of_loadEnvelope hload).1
  have hloaded : loadEnvelope S d = .ok (some handle) := by
    refine loadEnvelope_some_iff.mpr ⟨handle.slot, hkept, ?_⟩
    intro older holder
    cases hmissing.symm.trans holder
  refine ⟨hloaded, fun promise hkeeps => ⟨⟨_, hloaded⟩, fun promised hpromised =>
    ⟨⟨_, hloaded⟩, ?_⟩⟩⟩
  intro slot envelope hslot
  by_cases hne : slot = handle.slot
  · subst hne
    cases hkept.symm.trans hslot
    exact (hkeeps.2 promised hpromised).2 _ _ (probeSlot_of_loadEnvelope hload).1
  · obtain rfl := Slot.eq_other_of_ne hne
    cases hmissing.symm.trans hslot

theorem Unfinished.moves (hload : loadEnvelope S d₀ = .ok (some handle))
    (hnext : NextOf S handle phase entries next) (h : Unfinished S next d₀ d) : Moves S d₀ d := by
  rcases h with h | h | h
  · exact h.moves
  · rw [hnext.slot] at h
    exact (h.moves hload).2
  · exact h.moves hload hnext

/-- With both slots at the promise, it is kept. -/
theorem Keeps.of_both {promised : JournalEnvelope} (hkeeps : Keeps S promise d)
    (h : Both S promised d) : Keeps S (some promised) d := by
  obtain ⟨loaded, hloaded⟩ := hkeeps.1
  refine ⟨⟨loaded, hloaded⟩, fun promised' hpromised => ?_⟩
  cases hpromised
  constructor
  · cases loaded with
    | some envelope => exact ⟨envelope, hloaded⟩
    | none =>
        obtain ⟨envelope, hslot, _⟩ := h .a
        cases (loadEnvelope_none_iff.mp hloaded .a).symm.trans hslot
  · intro slot envelope hslot
    obtain ⟨envelope', hslot', hpast⟩ := h slot
    cases hslot'.symm.trans hslot
    exact hpast

end Invariant

/-! ### Calls -/

section Calls

variable {S : JournalSerde} {handle : JournalEnvelope} {phase : LegacyImportTransactionPhase}
  {entries : List LegacyImportTransactionEntry} {d₀ : JournalDirectory}

/-- A publication, as the calls use it. -/
theorem publishNext_acts (hread : S.ReadsBack) (hadvance : Advances handle phase entries)
    (d₀ : JournalDirectory) :
    Does (· = d₀) (publishNext S handle phase entries)
      (fun next d => loadEnvelope S d₀ = .ok (some handle) ∧ Moves S d₀ d ∧
        NextOf S handle phase entries next ∧ loadEnvelope S d = .ok (some next) ∧
        probeSlot S d next.slot.other = .valid handle)
      (Acts S handle d₀) := by
  apply Does.weaken (publishNext_does hread hadvance d₀) (fun _ h => h)
  · rintro next d ⟨hload, hnext, h⟩
    exact ⟨hload, h.moves hload hnext, hnext, h.load hload hnext⟩
  · rintro d (h | ⟨hload, next, hnext, h⟩)
    · exact .inl h
    · exact .inr ⟨hload, h.moves hload hnext⟩

/-- Two publications of the same phase and entries. -/
theorem publishTwice_acts (hread : S.ReadsBack) {next : JournalEnvelope}
    (hsame : transitionIsValid handle.requiresBlobPublication phase phase entries entries = true)
    (hload : loadEnvelope S d₀ = .ok (some handle)) {d₁ : JournalDirectory} (hmoves : Moves S d₀ d₁)
    (hnext : NextOf S handle phase entries next) :
    Does (· = d₁) (publishNext S next phase entries)
      (fun last d => Acts S handle d₀ d ∧ Both S last d ∧ last.phase = phase ∧
        last.entries = entries)
      (Acts S handle d₀) := by
  have hadvance : Advances next phase entries := by
    refine ⟨by rw [hnext.entries], ?_⟩
    rw [hnext.phase, hnext.entries, ← hnext.precedes.blobs]
    exact hsame
  apply Does.weaken (publishNext_acts hread hadvance d₁) (fun _ h => h)
  · rintro last d ⟨_, h, hlast, hloaded, hother⟩
    refine ⟨.inr ⟨hload, hmoves.trans h⟩, ?_, hlast.phase, hlast.entries⟩
    have hback : Past last next := by
      have hprecedes := hlast.precedes
      refine ⟨hprecedes.transactionId.symm, hprecedes.before.symm, hprecedes.after.symm, ?_, ?_⟩
      · rw [hlast.phase, hnext.phase]
        cases phase <;> rfl
      · rw [hlast.entries, hnext.entries]
        exact forall₂_entryPast_refl entries
    have hself : Past last last := hback.trans hlast.precedes.past
    intro slot
    by_cases hne : slot = last.slot
    · exact ⟨last, by rw [hne]; exact (probeSlot_of_loadEnvelope hloaded).1, hself⟩
    · exact ⟨next, by rw [Slot.eq_other_of_ne hne]; exact hother, hback⟩
  · intro d h
    exact .inr ⟨hload, hmoves.trans h.moves⟩

theorem both_of_semantics {d : JournalDirectory} (hphase : handle.phase = phase)
    (h : bothSlotsHaveSemantics S d handle phase = true) : Both S handle d := by
  unfold bothSlotsHaveSemantics at h
  split at h
  · next left right ha hb =>
    rw [Bool.and_eq_true, List.all_cons, List.all_cons, List.all_nil] at h
    simp only [Bool.and_eq_true, decide_eq_true_eq] at h
    have hpast : ∀ envelope : JournalEnvelope, envelope.transactionId = handle.transactionId →
        envelope.beforeGraphCommitment = handle.beforeGraphCommitment →
        envelope.afterGraphCommitment = handle.afterGraphCommitment → envelope.phase = phase →
        envelope.entries = handle.entries → Past handle envelope := by
      intro envelope hid hbefore hafter hphase' hentries
      refine ⟨hid.symm, hbefore.symm, hafter.symm, ?_, ?_⟩
      · rw [hphase, hphase']
        cases phase <;> rfl
      · rw [hentries]
        exact forall₂_entryPast_refl _
    obtain ⟨_, ⟨⟨⟨⟨⟨hl₁, hl₂⟩, hl₃⟩, _⟩, hl₄⟩, hl₅⟩, ⟨⟨⟨⟨⟨hr₁, hr₂⟩, hr₃⟩, _⟩, hr₄⟩, hr₅⟩, _⟩ := h
    intro slot
    cases slot with
    | a => exact ⟨left, ha, hpast left hl₁ hl₂ hl₃ hl₄ hl₅⟩
    | b => exact ⟨right, hb, hpast right hr₁ hr₂ hr₃ hr₄ hr₅⟩
  · cases h

theorem markPhase_acts (hread : S.ReadsBack) {source target : LegacyImportTransactionPhase}
    (hsource : handle.phase = source → transitionIsValid handle.requiresBlobPublication source target
      handle.entries handle.entries = true)
    (htarget : transitionIsValid handle.requiresBlobPublication target target handle.entries
      handle.entries = true) (hactive : target ≠ .active) :
    Does (· = d₀) (markPhase S source target handle)
      (fun marked d => Acts S handle d₀ d ∧ Both S marked d ∧ marked.Known)
      (Acts S handle d₀) := by
  have hknown : ∀ {marked : JournalEnvelope}, marked.phase = target → marked.Known :=
    fun hphase h => absurd (hphase.symm.trans h) hactive
  unfold markPhase
  apply Does.get
  intro d hd
  rw [hd]
  by_cases hboth : handle.phase = target ∧ bothSlotsHaveSemantics S d₀ handle target = true
  · simp only [if_pos hboth]
    apply Does.pure
    intro d hd
    refine ⟨OnHandle.same d hd, ?_, hknown hboth.1⟩
    rw [hd]
    exact both_of_semantics hboth.1 hboth.2
  · simp only [if_neg hboth]
    by_cases hphase : handle.phase = source ∨ handle.phase = target
    · simp only [if_pos hphase]
      have hadvance : Advances handle target handle.entries := by
        refine ⟨rfl, ?_⟩
        rcases hphase with hphase | hphase
        · rw [hphase]
          exact hsource hphase
        · rw [hphase]
          exact htarget
      refine Does.bind (publishNext_acts hread hadvance d₀) fun next => ?_
      apply Does.get
      rintro d₁ ⟨hload, hmoves, hnext, hloaded, hother⟩
      by_cases hagain : bothSlotsHaveSemantics S d₁ next target = true
      · simp only [if_pos hagain]
        apply Does.pure
        rintro _ rfl
        exact ⟨.inr ⟨hload, hmoves⟩, both_of_semantics hnext.phase hagain, hknown hnext.phase⟩
      · simp only [if_neg hagain]
        rw [hnext.entries]
        exact Does.weaken (publishTwice_acts hread htarget hload hmoves hnext) (fun _ h => h)
          (fun last d h => ⟨h.1, h.2.1, hknown h.2.2.1⟩) fun _ h => h
    · simp only [if_neg hphase]
      exact Does.throw OnHandle.same

theorem markBlobsDurable_acts (hread : S.ReadsBack) :
    Does (· = d₀) (markBlobsDurable S handle)
      (fun marked d => Acts S handle d₀ d ∧ Both S marked d ∧ marked.Known)
      (Acts S handle d₀) := by
  unfold markBlobsDurable
  by_cases hblobs : handle.requiresBlobPublication = true
  · rw [if_pos hblobs]
    apply markPhase_acts hread
    · intro _
      simp [transitionIsValid, hblobs]
    · simp [transitionIsValid, hblobs]
    · decide
  · rw [if_neg hblobs]
    exact Does.throw OnHandle.same

/-- A phase behind the active one, which keeps the entries. -/
theorem markEnd_acts (hread : S.ReadsBack) {target : LegacyImportTransactionPhase}
    (htarget : target = .rollbackTargetsRestored ∨ target = .vaultDurable) :
    Does (· = d₀) (markPhase S .active target handle)
      (fun marked d => Acts S handle d₀ d ∧ Both S marked d ∧ marked.Known)
      (Acts S handle d₀) := by
  apply markPhase_acts hread
  · intro _
    rcases htarget with rfl | rfl <;> simp [transitionIsValid]
  · rcases htarget with rfl | rfl <;> simp [transitionIsValid]
  · rcases htarget with rfl | rfl <;> decide

theorem recordPreviousForOwner_acts (hread : S.ReadsBack) {owner : LegacyImportCredentialOwner}
    {previous : LegacyPreviousCredentialState} :
    Does (· = d₀) (recordPreviousForOwner S handle owner previous)
      (fun _ d => Acts S handle d₀ d) (Acts S handle d₀) := by
  unfold recordPreviousForOwner
  by_cases hphase : handle.phase ≠ .preparing ∨ previous = .unknown
  · rw [if_pos hphase]
    exact Does.throw OnHandle.same
  · rw [if_neg hphase]
    rw [not_or, not_not] at hphase
    cases hfind : handle.entries.find? (·.owner = owner) with
    | none => exact Does.throw OnHandle.same
    | some entry =>
        by_cases hunknown : entry.previous = .unknown
        · simp only [if_pos hunknown]
          obtain ⟨hadvance, howners⟩ := advanceOnce_modify hphase.2 hfind hunknown
          have hadvances : Advances handle handle.phase (handle.entries.modify
              (handle.entries.findIdx (·.owner = owner)) (·.record previous)) := by
            refine ⟨howners, ?_⟩
            rw [hphase.1]
            exact hadvance
          exact Does.weaken (publishNext_acts hread hadvances d₀) (fun _ h => h)
            (fun next d h => .inr ⟨h.1, h.2.1⟩) fun _ h => h
        · simp only [if_neg hunknown]
          by_cases hrecorded : entry.previous = previous
          · simp only [if_pos hrecorded]
            exact Does.pure OnHandle.same
          · simp only [if_neg hrecorded]
            exact Does.throw OnHandle.same

theorem activateForOwners_acts (hread : S.ReadsBack) {states : List PreviousState} :
    Does (· = d₀) (activateForOwners S handle states)
      (fun activated d => Acts S handle d₀ d ∧ Both S activated d ∧ activated.Known)
      (Acts S handle d₀) := by
  unfold activateForOwners
  apply Does.get
  intro d hd
  rw [hd]
  split
  · exact Does.throw OnHandle.same
  · next hsource =>
    split
    · exact Does.throw OnHandle.same
    · refine Does.bind (R := fun entries d => completedEntries handle.entries states = .ok entries ∧
        d = d₀) (Does.ofExcept (fun _ hentries _ h => ⟨hentries, h⟩) OnHandle.same) fun entries => ?_
      apply Does.assume
      intro hentries
      obtain ⟨howners, hactivate, hknown⟩ := completedEntries_ok hentries
      have hadvance : Advances handle .active entries := by
        refine ⟨howners, ?_⟩
        rw [not_not] at hsource
        rw [hsource, activationSource]
        cases hblobs : handle.requiresBlobPublication with
        | true => exact hactivate
        | false => exact hactivate
      refine Does.bind (publishNext_acts hread hadvance d₀) fun next => ?_
      apply Does.each
      rintro d₁ ⟨hload, hmoves, hnext, _, _⟩
      apply Does.weaken (publishTwice_acts hread (by simp [transitionIsValid]) hload hmoves hnext)
        (fun _ h => h) _ fun _ h => h
      rintro last d ⟨hacts, hboth, _, hlast⟩
      rw [← hlast] at hknown
      exact ⟨hacts, hboth, fun _ => hknown⟩

/-- What may be found where the begin of a journal ends or is stopped. -/
def Begun (S : JournalSerde) (d₀ d : JournalDirectory) : Prop :=
  SameSlots d₀ d ∨ loadEnvelope S d₀ = .ok none ∧ ∃ loaded, loadEnvelope S d = .ok loaded

theorem Begun.moves {d : JournalDirectory} (h : Begun S d₀ d) : Moves S d₀ d := by
  rcases h with h | ⟨hnone, hloaded⟩
  · exact h.moves
  · intro promise hkeeps
    refine ⟨hloaded, fun promised hpromised => ?_⟩
    obtain ⟨envelope, hload⟩ := (hkeeps.2 promised hpromised).1
    cases hnone.symm.trans hload

theorem beginForOwners_moves (hread : S.ReadsBack) {owners : List LegacyImportCredentialOwner}
    {before after : SavedVaultGraphCommitment} {blobs : Bool} :
    Does (· = d₀) (beginForOwners S owners before after blobs)
      (fun begun d => loadEnvelope S d₀ = .ok none ∧ loadEnvelope S d = .ok (some begun))
      (Begun S d₀) := by
  have hstart : ∀ d, d = d₀ → SameSlots d₀ d := by
    rintro _ rfl
    exact SameSlots.refl _
  have hsame : ∀ d, d = d₀ → Begun S d₀ d := fun d h => .inl (hstart d h)
  unfold beginForOwners
  refine Does.bind (R := fun _ d => d = d₀) (Does.ofExcept (fun _ _ _ h => h) hsame) fun _ => ?_
  refine Does.bind (R := fun _ d => d = d₀) (Does.ofExcept (fun _ _ _ h => h) hsame) fun _ => ?_
  apply Does.get
  intro d hd
  rw [hd]
  refine Does.bind (R := fun loaded d => loadEnvelope S d₀ = .ok loaded ∧ d = d₀)
    (Does.ofExcept (fun _ hload _ h => ⟨hload, h⟩) hsame) fun loaded => ?_
  cases loaded with
  | some current => exact Does.throw fun d h => hsame d h.2
  | none =>
      apply Does.assume
      intro hload
      refine Does.bind (Does.always (drawId_spec hsame)) fun transactionId => ?_
      refine Does.bind (R := fun begun d =>
        (begun.validate S .a = true ∧ begun.slot = .a ∧ begun.formatVersion = journalFormatVersion) ∧
          d = d₀) (Does.ofExcept ?_ hsame) fun begun => ?_
      · intro begun hbegun d h
        obtain ⟨hpayload, hvalid⟩ := newWithBlobPublication_ok hbegun
        obtain ⟨payload, checksum⟩ := begun
        cases hpayload
        exact ⟨⟨hvalid, rfl, rfl⟩, h⟩
      apply Does.assume
      rintro ⟨hvalid, hslot, hformat⟩
      have hmissing := loadEnvelope_none_iff.mp hload
      have hpublished : ∀ d, Publishes S begun d₀ d → loadEnvelope S d = .ok (some begun) := by
        intro d h
        refine loadEnvelope_some_iff.mpr ⟨begun.slot, h.probe, ?_⟩
        intro older holder
        cases (hmissing _).symm.trans ((probeSlot_congr h.other).symm.trans holder)
      rw [← hslot] at hvalid
      refine Does.bind (Does.weaken (writeSlot_does hread hformat hvalid) hstart (fun _ _ h => h) ?_)
        fun _ => Does.pure fun d h => ⟨hload, hpublished d h⟩
      · rintro d (h | h | h)
        · exact .inl h
        · refine .inr ⟨hload, none, loadEnvelope_none_iff.mpr fun slot => ?_⟩
          by_cases hne : slot = begun.slot
          · rw [hne, probeSlot, h.file]
          · rw [Slot.eq_other_of_ne hne, probeSlot_congr h.other]
            exact hmissing _
        · exact .inr ⟨hload, some begun, hpublished d h⟩

/-- What may be found where the end of a journal ends or is stopped. -/
abbrev Finished (S : JournalSerde) (handle : JournalEnvelope) :
    JournalDirectory → JournalDirectory → Prop :=
  OnHandle S handle fun d =>
    loadEnvelope S d = .ok (some handle) ∨ loadEnvelope S d = .ok none

/-- The older slot goes first, so that no older generation comes back. -/
theorem finish_removes :
    Does (· = d₀) (finish S handle)
      (fun _ d => loadEnvelope S d₀ = .ok (some handle) ∧ loadEnvelope S d = .ok none)
      (Finished S handle d₀) := by
  unfold finish
  apply Does.get
  intro d hd
  rw [hd]
  refine Does.bind (R := fun _ d => loadEnvelope S d₀ = .ok (some handle) ∧ d = d₀)
    (Does.ofExcept (fun _ hcurrent d h => ⟨expectCurrent_ok hcurrent, h⟩) OnHandle.same) fun _ => ?_
  apply Does.assume
  intro hload
  have hvacated : ∀ d, Sets handle.slot.other none d₀ d → Finished S handle d₀ d :=
    fun d h => .inr ⟨hload, .inl (h.moves hload).1⟩
  refine Does.bind (R := fun _ => Sets handle.slot.other none d₀)
    (Does.weaken (removeSlotIfPresent_does d₀ _) (fun _ h => h) (fun _ d h => h.1) OnHandle.same)
    fun _ => ?_
  refine Does.bind (syncAll_does hvacated) fun _ => ?_
  refine Does.bind (R := fun _ d => loadEnvelope S d = .ok none) ?_ fun _ => ?_
  · apply Does.each
    intro d₁ h₁
    refine Does.weaken (removeSlotIfPresent_does d₁ _) (fun _ h => h) ?_ ?_
    · rintro _ d ⟨h, _⟩
      refine loadEnvelope_none_iff.mpr fun slot => ?_
      by_cases hne : slot = handle.slot
      · rw [hne, probeSlot, h.file]
      · rw [Slot.eq_other_of_ne hne, probeSlot, h.other, h₁.file]
    · rintro _ rfl
      exact hvacated _ h₁
  · exact Does.weaken (syncAll_does fun d h => .inr ⟨hload, .inr h⟩) (fun _ h => h)
      (fun _ d h => ⟨hload, h⟩) fun _ h => h

end Calls

/-! ### Runs -/

inductive JournalCall
  | beginForOwners (owners : List LegacyImportCredentialOwner)
      (before after : SavedVaultGraphCommitment) (requiresBlobPublication : Bool)
  | recordPreviousForOwner (handle : JournalEnvelope) (owner : LegacyImportCredentialOwner)
      (previous : LegacyPreviousCredentialState)
  | markBlobsDurable (handle : JournalEnvelope)
  | activateForOwners (handle : JournalEnvelope) (states : List PreviousState)
  | markRollbackTargetsRestored (handle : JournalEnvelope)
  | markVaultDurable (handle : JournalEnvelope)
  | finish (handle : JournalEnvelope)

namespace JournalCall

variable (S : JournalSerde)

/-- The call, with the generation that a marking call returns. -/
def run : JournalCall → JournalAttempt (Option JournalEnvelope)
  | beginForOwners owners before after blobs =>
      (fun _ => none) <$> Desktop.beginForOwners S owners before after blobs
  | recordPreviousForOwner handle owner previous =>
      (fun _ => none) <$> Desktop.recordPreviousForOwner S handle owner previous
  | markBlobsDurable handle => some <$> Desktop.markBlobsDurable S handle
  | activateForOwners handle states => some <$> Desktop.activateForOwners S handle states
  | markRollbackTargetsRestored handle => some <$> Desktop.markRollbackTargetsRestored S handle
  | markVaultDurable handle => some <$> Desktop.markVaultDurable S handle
  | finish handle => (fun _ => none) <$> Desktop.finish S handle

/-- To finish the journal withdraws the promise. -/
def withdraws (d : JournalDirectory) : JournalCall → Bool
  | finish handle => loadEnvelope S d = .ok (some handle)
  | _ => false

/-- A marking call that returns makes a promise. -/
def marked (before : Option JournalEnvelope) :
    Option (Except LegacyImportTransactionError (Option JournalEnvelope)) → Option JournalEnvelope
  | some (.ok (some marked)) => some marked
  | _ => before

def promise (call : JournalCall) (d : JournalDirectory)
    (result : Option (Except LegacyImportTransactionError (Option JournalEnvelope)))
    (before : Option JournalEnvelope) : Option JournalEnvelope :=
  if call.withdraws S d then none else marked before result

/-- What a call may do. -/
def Ends (d₀ d : JournalDirectory) : JournalCall → Prop
  | beginForOwners _ _ _ _ => Begun S d₀ d
  | recordPreviousForOwner handle _ _ | markBlobsDurable handle | activateForOwners handle _
  | markRollbackTargetsRestored handle | markVaultDurable handle => Acts S handle d₀ d
  | finish handle => Finished S handle d₀ d

/-- What a call has marked stands in both slots. -/
def Marks (marked : Option JournalEnvelope) (d : JournalDirectory) : Prop :=
  ∀ promised, marked = some promised → Both S promised d ∧ promised.Known

variable {S} {d₀ : JournalDirectory}

theorem marks {m : JournalAttempt JournalEnvelope} {X : JournalDirectory → Prop}
    (h : Does (· = d₀) m (fun marked d => X d ∧ Both S marked d ∧ marked.Known) X) :
    Does (· = d₀) (some <$> m) (fun marked d => X d ∧ Marks S marked d) X := by
  apply Does.map (h.weaken (fun _ h => h) _ fun _ h => h)
  rintro marked d ⟨hX, hmarks⟩
  refine ⟨hX, ?_⟩
  rintro _ ⟨⟩
  exact hmarks

theorem marksNothing {α : Type} {m : JournalAttempt α} {X : JournalDirectory → Prop}
    (h : Does (· = d₀) m (fun _ => X) X) :
    Does (· = d₀) ((fun _ => none) <$> m) (fun marked d => X d ∧ Marks S marked d) X :=
  Does.map (h.weaken (fun _ h => h) (fun _ _ h => ⟨h, fun _ hmarked => by cases hmarked⟩)
    fun _ h => h)

theorem run_does (hread : S.ReadsBack) (call : JournalCall) (d₀ : JournalDirectory) :
    Does (· = d₀) (call.run S) (fun marked d => call.Ends S d₀ d ∧ Marks S marked d)
      (fun d => call.Ends S d₀ d) := by
  cases call with
  | beginForOwners owners before after blobs =>
      exact marksNothing ((beginForOwners_moves hread).weaken (fun _ h => h)
        (fun begun d h => .inr ⟨h.1, some begun, h.2⟩) fun _ h => h)
  | recordPreviousForOwner handle owner previous =>
      exact marksNothing (recordPreviousForOwner_acts hread)
  | markBlobsDurable handle => exact marks (markBlobsDurable_acts hread)
  | activateForOwners handle states => exact marks (activateForOwners_acts hread)
  | markRollbackTargetsRestored handle => exact marks (markEnd_acts hread (.inl rfl))
  | markVaultDurable handle => exact marks (markEnd_acts hread (.inr rfl))
  | finish handle =>
      exact marksNothing (finish_removes.weaken (fun _ h => h)
        (fun _ d h => .inr ⟨h.1, .inr h.2⟩) fun _ h => h)

/-- A call that does not withdraw the promise keeps it. -/
theorem Ends.moves {call : JournalCall} {d : JournalDirectory} (h : call.Ends S d₀ d)
    (hwithdrawn : ¬call.withdraws S d₀ = true) : Moves S d₀ d := by
  cases call with
  | beginForOwners => exact Begun.moves h
  | finish handle =>
      apply SameSlots.moves
      apply h.resolve_right
      rintro ⟨hload, _⟩
      exact hwithdrawn (decide_eq_true hload)
  | recordPreviousForOwner | markBlobsDurable | activateForOwners | markRollbackTargetsRestored
  | markVaultDurable => exact OnHandle.moves h

end JournalCall

structure JournalState where
  directory : JournalDirectory
  promise : Option JournalEnvelope

/-- Where a call comes to its end. -/
def JournalState.after (S : JournalSerde) (state : JournalState) (call : JournalCall)
    (tape : List (Choice Uuid)) : JournalState :=
  let ended := (call.run S).run state.directory tape
  ⟨ended.state, call.promise S state.directory ended.value? state.promise⟩

/-- One call, made on any handle and stopped at any place, or the loss of one slot while the other
one stands. -/
inductive JournalStep (S : JournalSerde) : JournalState → JournalState → Prop
  | call (state : JournalState) (call : JournalCall) (tape : List (Choice Uuid)) :
      JournalStep S state (state.after S call tape)
  | lose (state : JournalState) (slot : Slot) (d : JournalDirectory)
      (hother : d.lookup (.slot slot.other) = state.directory.lookup (.slot slot.other))
      (hlost : ∀ envelope, probeSlot S d slot ≠ .valid envelope)
      (hstands : ∃ envelope, probeSlot S state.directory slot.other = .valid envelope) :
      JournalStep S state ⟨d, state.promise⟩

/-- The promise of an active generation knows every state before the transaction. -/
structure JournalState.Sound (S : JournalSerde) (state : JournalState) : Prop where
  keeps : Keeps S state.promise state.directory
  known : ∀ promised, state.promise = some promised → promised.Known

section Runs

variable {S : JournalSerde} {state state' : JournalState}

theorem JournalState.Sound.call (hread : S.ReadsBack) (hsound : state.Sound S) (call : JournalCall)
    (tape : List (Choice Uuid)) : (state.after S call tape).Sound S := by
  have hcases := (call.run_does hread state.directory).cases rfl tape
  have hends : call.Ends S state.directory ((call.run S).run state.directory tape).state :=
    hcases.elim (fun ⟨_, _, h, _⟩ => h) fun h => h.2
  by_cases hwithdrawn : call.withdraws S state.directory = true
  · have hpromise : ∀ result, call.promise S state.directory result state.promise = none :=
      fun result => if_pos hwithdrawn
    rw [JournalState.after, hpromise]
    refine ⟨⟨?_, by simp⟩, by simp⟩
    cases call with
    | finish handle =>
        rcases hends with hsame | ⟨_, hloaded | hloaded⟩
        · rw [hsame.loadEnvelope_eq]
          exact hsound.keeps.1
        · exact ⟨_, hloaded⟩
        · exact ⟨_, hloaded⟩
    | _ => cases hwithdrawn
  · have hkeeps := hends.moves hwithdrawn _ hsound.keeps
    have hpromise : ∀ result, call.promise S state.directory result state.promise =
        JournalCall.marked state.promise result := fun _ => if_neg hwithdrawn
    rw [JournalState.after, hpromise]
    rcases hcases with ⟨marked, hvalue, _, hmarks⟩ | ⟨hvalue, _⟩
    · rw [hvalue]
      cases marked with
      | none => exact ⟨hkeeps, hsound.known⟩
      | some marked =>
          refine ⟨hkeeps.of_both (hmarks marked rfl).1, ?_⟩
          rintro _ ⟨⟩
          exact (hmarks marked rfl).2
    · cases hresult : ((call.run S).run state.directory tape).value? with
      | none => exact ⟨hkeeps, hsound.known⟩
      | some result =>
          cases result with
          | ok marked => exact absurd hresult (hvalue marked)
          | error error => exact ⟨hkeeps, hsound.known⟩

theorem JournalState.Sound.step (hread : S.ReadsBack) (hsound : state.Sound S)
    (h : JournalStep S state state') : state'.Sound S := by
  cases h with
  | call call tape => exact hsound.call hread call tape
  | lose slot d hother hlost hstands =>
      obtain ⟨kept, hkept⟩ := hstands
      rw [← probeSlot_congr hother] at hkept
      have hloaded : loadEnvelope S d = .ok (some kept) := by
        refine loadEnvelope_some_iff.mpr ⟨slot.other, hkept, ?_⟩
        intro older holder
        rw [other_other] at holder
        exact absurd holder (hlost older)
      refine ⟨⟨⟨_, hloaded⟩, fun promised hpromised => ⟨⟨_, hloaded⟩, ?_⟩⟩, hsound.known⟩
      intro slot' envelope hslot
      by_cases hne : slot' = slot
      · rw [hne] at hslot
        exact absurd hslot (hlost envelope)
      · rw [Slot.eq_other_of_ne hne, probeSlot_congr hother] at hslot
        exact (hsound.keeps.2 promised hpromised).2 _ _ hslot

theorem JournalState.Sound.run (hread : S.ReadsBack) (hsound : state.Sound S)
    (h : Relation.ReflTransGen (JournalStep S) state state') : state'.Sound S := by
  induction h with
  | refl => exact hsound
  | tail _ hstep ih => exact ih.step hread hstep

end Runs

end Netcatty.Desktop
