import Netcatty.Desktop.ImportJournal

/-! # What the journal keeps

A generation is written next to the one that it follows (`Precedes`), so that the slots can be loaded
wherever a call ends or is stopped, and give the old generation or the new one (`publishNext_does`).
A call that returns after two publications leaves its phase in both slots.  From then on either slot
may be lost: what is loaded is never behind that phase (`journal_keeps_promises`). -/

namespace Netcatty.Desktop

open Crash FileSystem
open Secret (Uuid)
open Vault (SavedVaultGraphCommitment Slot Text isOpaqueId)

@[simp] theorem other_other (slot : Slot) : slot.other.other = slot := by
  cases slot <;> rfl

theorem other_ne (slot : Slot) : slot.other ≠ slot := by
  cases slot <;> decide

/-! ### Generations that follow each other -/

structure Precedes (older newer : JournalEnvelope) : Prop where
  transactionId : older.transactionId = newer.transactionId
  before : older.beforeGraphCommitment = newer.beforeGraphCommitment
  after : older.afterGraphCommitment = newer.afterGraphCommitment
  blobs : older.requiresBlobPublication = newer.requiresBlobPublication
  generation : older.generation + 1 = newer.generation
  owners : older.entries.map (·.owner) = newer.entries.map (·.owner)
  format : older.formatVersion ≤ newer.formatVersion
  transition : transitionIsValid newer.requiresBlobPublication older.phase newer.phase
    older.entries newer.entries = true

/-- Two slots agree, if the one holds the generation before that of the other. -/
theorem validateSlotPair_iff {left right : JournalEnvelope} :
    validateSlotPair left right = true ↔ Precedes left right ∨ Precedes right left := by
  have hback : ∀ {l l' : List LegacyImportCredentialOwner}, l = l' ↔ l' = l := eq_comm
  constructor
  · intro h
    simp only [validateSlotPair, Bool.and_eq_true, Bool.or_eq_true, decide_eq_true_eq] at h
    obtain ⟨⟨⟨⟨⟨⟨hid, hbefore⟩, hafter⟩, hblobs⟩, hgeneration⟩, howners⟩, hformat, htransition⟩ := h
    rcases hgeneration with hlt | hlt
    · have hless : left.generation < right.generation := by omega
      rw [if_pos hless, if_pos hless] at hformat htransition
      exact .inl ⟨hid, hbefore, hafter, hblobs, hlt, howners, hformat, htransition⟩
    · have hless : ¬left.generation < right.generation := by omega
      rw [if_neg hless, if_neg hless] at hformat htransition
      exact .inr ⟨hid.symm, hbefore.symm, hafter.symm, hblobs.symm, hlt, howners.symm, hformat,
        htransition⟩
  · rintro (⟨hid, hbefore, hafter, hblobs, hlt, howners, hformat, htransition⟩ |
      ⟨hid, hbefore, hafter, hblobs, hlt, howners, hformat, htransition⟩)
    · have hless : left.generation < right.generation := by omega
      simp only [validateSlotPair, if_pos hless]
      simp [hid, hbefore, hafter, hblobs, hlt, howners, hformat, htransition]
    · have hless : ¬left.generation < right.generation := by omega
      simp only [validateSlotPair, if_neg hless]
      simp [hid, hbefore, hafter, hblobs, hlt, howners, hformat, htransition]

/-! ### Envelopes -/

section Envelopes

variable {S : JournalSerde} {envelope next : JournalEnvelope} {slot : Slot}

theorem validate_iff : envelope.validate S slot = true ↔
    envelope.magic = journalMagic ∧
    (legacyJournalFormatVersion ≤ envelope.formatVersion ∧
      envelope.formatVersion ≤ journalFormatVersion) ∧
    envelope.slot = slot ∧ envelope.generation ≠ 0 ∧
    Slot.forGeneration envelope.generation = slot ∧
    validatePhaseForFormat envelope.formatVersion envelope.requiresBlobPublication
      envelope.phase = .ok () ∧
    validateTransactionId envelope.transactionId = .ok () ∧
    validateGraphCommitments envelope.beforeGraphCommitment
      envelope.afterGraphCommitment = .ok () ∧
    validateEntries envelope.entries = .ok () ∧
    journalChecksum S envelope.toChecksumPayload = .ok envelope.checksum := by
  have hok : ∀ r : Except LegacyImportTransactionError Unit, r.isOk = true ↔ r = .ok () := by
    intro r
    cases r <;> simp [Except.isOk, Except.toBool]
  have hchecksum : ∀ (r : Except LegacyImportTransactionError Text) (checksum : Text),
      r.toOption = some checksum ↔ r = .ok checksum := by
    intro r checksum
    cases r <;> simp [Except.toOption]
  simp only [JournalEnvelope.validate, Bool.and_eq_true, decide_eq_true_eq, hok, hchecksum,
    and_assoc]

theorem newWithBlobPublication_ok {generation : ℕ} {transactionId : Uuid}
    {before after : SavedVaultGraphCommitment} {blobs : Bool} {phase : LegacyImportTransactionPhase}
    {entries : List LegacyImportTransactionEntry}
    (h : newWithBlobPublication S slot generation transactionId before after blobs phase entries =
      .ok envelope) :
    envelope.toChecksumPayload =
      ⟨journalMagic, journalFormatVersion, slot, generation, transactionId, before, after, blobs,
        phase, entries⟩ ∧ envelope.validate S slot = true := by
  unfold newWithBlobPublication at h
  split at h
  · cases h
  · next hgeneration =>
    rw [not_or, not_not] at hgeneration
    obtain ⟨_, hphase, h⟩ := bind_eq_ok.mp h
    obtain ⟨_, hid, h⟩ := bind_eq_ok.mp h
    obtain ⟨_, hgraph, h⟩ := bind_eq_ok.mp h
    obtain ⟨_, hentries, h⟩ := bind_eq_ok.mp h
    obtain ⟨checksum, hchecksum, h⟩ := bind_eq_ok.mp h
    cases h
    refine ⟨rfl, validate_iff.mpr ⟨rfl, ?_, rfl, hgeneration.1, hgeneration.2, hphase, hid, hgraph,
      hentries, hchecksum⟩⟩
    exact ⟨Nat.le_of_ble_eq_true rfl, Nat.le_refl _⟩

/-- What the next generation of a handle is. -/
structure NextOf (S : JournalSerde) (handle : JournalEnvelope) (phase : LegacyImportTransactionPhase)
    (entries : List LegacyImportTransactionEntry) (next : JournalEnvelope) : Prop where
  precedes : Precedes handle next
  slot : next.slot = handle.slot.other
  phase : next.phase = phase
  entries : next.entries = entries
  format : next.formatVersion = journalFormatVersion
  valid : next.validate S next.slot = true

/-- The entries that a call writes name the same owners, and the phases may follow each other. -/
structure Advances (handle : JournalEnvelope) (phase : LegacyImportTransactionPhase)
    (entries : List LegacyImportTransactionEntry) : Prop where
  owners : handle.entries.map (·.owner) = entries.map (·.owner)
  transition : transitionIsValid handle.requiresBlobPublication handle.phase phase handle.entries
    entries = true

theorem nextEnvelope_ok {handle : JournalEnvelope} {phase : LegacyImportTransactionPhase}
    {entries : List LegacyImportTransactionEntry} (hvalid : handle.validate S slot = true)
    (hadvance : Advances handle phase entries)
    (h : nextEnvelope S handle phase entries = .ok next) : NextOf S handle phase entries next := by
  unfold nextEnvelope at h
  split at h
  · cases h
  · obtain ⟨hpayload, hnext⟩ := newWithBlobPublication_ok h
    obtain ⟨payload, checksum⟩ := next
    cases hpayload
    exact ⟨⟨rfl, rfl, rfl, rfl, rfl, hadvance.owners, (validate_iff.mp hvalid).2.1.2,
      hadvance.transition⟩, rfl, rfl, rfl, rfl, hnext⟩

end Envelopes

/-! ### Loading -/

section Loading

variable {S : JournalSerde} {d d₀ : JournalDirectory} {envelope : JournalEnvelope} {slot : Slot}

theorem probeSlot_congr {d' : JournalDirectory} (h : d.lookup (.slot slot) = d'.lookup (.slot slot)) :
    probeSlot S d slot = probeSlot S d' slot := by
  unfold probeSlot
  rw [h]

theorem validate_of_probeSlot (h : probeSlot S d slot = .valid envelope) :
    envelope.validate S slot = true := by
  unfold probeSlot at h
  split at h
  · cases h
  · cases h
  · split at h
    · cases h
    · split at h
      · cases h
      · split at h
        · next hvalid =>
          cases h
          exact hvalid
        · cases h

theorem slot_of_probeSlot (h : probeSlot S d slot = .valid envelope) : envelope.slot = slot :=
  (validate_iff.mp (validate_of_probeSlot h)).2.2.1

theorem loadPair_valid {left right : JournalEnvelope} (h : Precedes left right ∨ Precedes right left) :
    loadPair (.valid left) (.valid right) =
      .ok (some (if right.generation < left.generation then left else right)) :=
  if_pos (validateSlotPair_iff.mpr h)

theorem loadEnvelope_some_iff : loadEnvelope S d = .ok (some envelope) ↔
    ∃ slot, probeSlot S d slot = .valid envelope ∧
      ∀ older, probeSlot S d slot.other = .valid older → Precedes older envelope := by
  have hnewer : ∀ {older newer : JournalEnvelope}, Precedes older newer →
      older.generation < newer.generation := by
    intro older newer h
    have := h.generation
    omega
  constructor
  · intro h
    unfold loadEnvelope at h
    cases ha : probeSlot S d .a with
    | valid left =>
        cases hb : probeSlot S d .b with
        | valid right =>
            rw [ha, hb] at h
            by_cases hpair : validateSlotPair left right = true
            · rcases validateSlotPair_iff.mp hpair with hless | hless
              · rw [loadPair_valid (.inl hless), if_neg (hnewer hless).not_gt] at h
                cases h
                refine ⟨.b, hb, ?_⟩
                intro older holder
                cases ha.symm.trans holder
                exact hless
              · rw [loadPair_valid (.inr hless), if_pos (hnewer hless)] at h
                cases h
                refine ⟨.a, ha, ?_⟩
                intro older holder
                cases hb.symm.trans holder
                exact hless
            · rw [loadPair, if_neg hpair] at h
              cases h
        | missing | corrupt =>
            rw [ha, hb] at h
            cases h
            refine ⟨.a, ha, ?_⟩
            intro older holder
            cases hb.symm.trans holder
    | missing | corrupt =>
        cases hb : probeSlot S d .b with
        | valid right =>
            rw [ha, hb] at h
            cases h
            refine ⟨.b, hb, ?_⟩
            intro older holder
            cases ha.symm.trans holder
        | missing | corrupt =>
            rw [ha, hb] at h
            cases h
  · rintro ⟨slot, hslot, holder⟩
    unfold loadEnvelope
    cases hother : probeSlot S d slot.other with
    | valid older =>
        have hless := holder older hother
        cases slot with
        | a =>
            rw [hslot, show probeSlot S d .b = .valid older from hother, loadPair_valid (.inr hless),
              if_pos (hnewer hless)]
        | b =>
            rw [hslot, show probeSlot S d .a = .valid older from hother, loadPair_valid (.inl hless),
              if_neg (hnewer hless).not_gt]
    | missing | corrupt =>
        cases slot with
        | a =>
            change probeSlot S d .b = _ at hother
            rw [hslot, hother]
            rfl
        | b =>
            change probeSlot S d .a = _ at hother
            rw [hslot, hother]
            rfl

theorem loadEnvelope_none_iff : loadEnvelope S d = .ok none ↔
    ∀ slot, probeSlot S d slot = .missing := by
  constructor
  · intro h slot
    unfold loadEnvelope at h
    cases ha : probeSlot S d .a with
    | missing =>
        cases hb : probeSlot S d .b with
        | missing => cases slot <;> assumption
        | valid right =>
            rw [ha, hb] at h
            cases h
        | corrupt =>
            rw [ha, hb] at h
            cases h
    | valid left =>
        rw [ha] at h
        cases hb : probeSlot S d .b with
        | valid right =>
            rw [hb, loadPair] at h
            split at h <;> cases h
        | missing | corrupt =>
            rw [hb] at h
            cases h
    | corrupt =>
        rw [ha] at h
        cases hb : probeSlot S d .b with
        | valid right | missing | corrupt =>
            rw [hb] at h
            cases h
  · intro h
    rw [loadEnvelope, h .a, h .b]
    rfl

/-- What is loaded stands in its slot, and the other slot holds an older generation, if any. -/
theorem probeSlot_of_loadEnvelope (h : loadEnvelope S d = .ok (some envelope)) :
    probeSlot S d envelope.slot = .valid envelope ∧
      ∀ older, probeSlot S d envelope.slot.other = .valid older → Precedes older envelope := by
  obtain ⟨slot, hslot, holder⟩ := loadEnvelope_some_iff.mp h
  rw [slot_of_probeSlot hslot]
  exact ⟨hslot, holder⟩

end Loading

/-! ### Writing a slot -/

/-- The slots hold the files that they held. -/
def SameSlots (d₀ d : JournalDirectory) : Prop :=
  ∀ slot, d.lookup (.slot slot) = d₀.lookup (.slot slot)

/-- One slot has another file, or none. -/
structure Sets (slot : Slot) (file : Option File) (d₀ d : JournalDirectory) : Prop where
  file : d.lookup (.slot slot) = file
  other : d.lookup (.slot slot.other) = d₀.lookup (.slot slot.other)

/-- Where the writing of a slot may be stopped. -/
def Interrupted (slot : Slot) (encoded : Bytes) (d₀ d : JournalDirectory) : Prop :=
  SameSlots d₀ d ∨ Sets slot none d₀ d ∨ Sets slot (some (.regular encoded)) d₀ d

section Writing

variable {d₀ d : JournalDirectory} {id : Uuid} {slot : Slot} {encoded : Bytes}

theorem SameSlots.refl (d : JournalDirectory) : SameSlots d d := fun _ => rfl

theorem SameSlots.insert_temp (h : SameSlots d₀ d) (file : File) :
    SameSlots d₀ (d.insert (.temp id) file) := by
  intro slot
  rw [AList.lookup_insert_ne (by simp), h slot]

theorem SameSlots.erase_temp (h : SameSlots d₀ d) : SameSlots d₀ (d.erase (.temp id)) := by
  intro slot
  rw [AList.lookup_erase_ne (by simp), h slot]

theorem Sets.erase_temp {file : Option File} (h : Sets slot file d₀ d) :
    Sets slot file d₀ (d.erase (.temp id)) := by
  constructor
  · rw [AList.lookup_erase_ne (by simp), h.file]
  · rw [AList.lookup_erase_ne (by simp), h.other]

theorem orStorage_does {m : DirectoryProg JournalName Uuid (Except IoError Unit)}
    {P X : JournalDirectory → Prop} {Q : Unit → JournalDirectory → Prop}
    (h : Triple P m (fun r d => match r with
      | .ok a => Q a d
      | .error _ => X d) X) : Does P (orStorage m) Q X := by
  apply Does.orFail
  apply Triple.weaken h (fun _ h => h) _ fun _ h => h
  intro r d hd
  cases r <;> exact hd

theorem syncAll_does {P : JournalDirectory → Prop} {X : JournalDirectory → Prop}
    (h : ∀ d, P d → X d) : Does P (orStorage syncAll) (fun _ => P) X := by
  apply orStorage_does
  apply Triple.weaken (syncAll_spec h) (fun _ h => h) _ fun _ h => h
  intro r d hd
  cases r with
  | ok u => exact hd
  | error e => exact h d hd

/-- After the removal the slot is empty; where it fails nothing is changed. -/
theorem removeSlotIfPresent_does (d₁ : JournalDirectory) (slot : Slot) :
    Does (· = d₁) (removeSlotIfPresent slot)
      (fun _ d => Sets slot none d₁ d ∧ ∀ id, d.lookup (.temp id) = d₁.lookup (.temp id))
      (· = d₁) := by
  unfold removeSlotIfPresent
  apply Does.get
  intro d hd
  rw [hd]
  cases hfile : d₁.lookup (.slot slot) with
  | none =>
      apply Does.pure
      rintro _ rfl
      exact ⟨⟨hfile, rfl⟩, fun _ => rfl⟩
  | some file =>
      cases file with
      | irregular => exact Does.throw fun _ h => h
      | regular bytes =>
          apply orStorage_does
          apply Triple.weaken (removeFile_wp _ fun _ h => h) (fun _ h => h) _ fun _ h => h
          intro r d h
          cases r with
          | error e => exact h
          | ok u =>
              obtain ⟨_, rfl, rfl⟩ := h
              refine ⟨⟨AList.lookup_erase _ _, ?_⟩, fun id => AList.lookup_erase_ne (by simp)⟩
              apply AList.lookup_erase_ne
              simp [other_ne]

theorem publishSlot_does :
    Does (SameSlots d₀) (publishSlot id slot encoded)
      (fun _ => Sets slot (some (.regular encoded)) d₀) (Interrupted slot encoded d₀) := by
  have hsame : ∀ d, SameSlots d₀ d → Interrupted slot encoded d₀ d := fun _ => .inl
  have hsets : ∀ d, Sets slot (some (.regular encoded)) d₀ d → Interrupted slot encoded d₀ d :=
    fun _ h => .inr (.inr h)
  unfold publishSlot
  refine Does.bind (R := fun _ => SameSlots d₀) ?_ fun _ => ?_
  · apply orStorage_does
    apply Triple.weaken (createNew_spec _ hsame) (fun _ h => h) _ fun _ h => h
    intro r d h
    cases r with
    | error e => exact hsame d h
    | ok u =>
        obtain ⟨d₁, h, _, rfl⟩ := h
        exact h.insert_temp _
  refine Does.bind (R := fun _ d => SameSlots d₀ d ∧
    d.lookup (.temp id) = some (.regular encoded)) ?_ fun _ => ?_
  · apply orStorage_does
    apply Triple.weaken (writeAll_spec (.temp id) encoded (R := SameSlots d₀) hsame hsame
      fun d n h => (h.elim (fun h => h) fun h => h).insert_temp _) (fun _ h => h) _ fun _ h => h
    intro r d h
    cases r with
    | error e => exact hsame d h
    | ok u =>
        obtain ⟨d₁, h, rfl⟩ := h
        exact ⟨h.insert_temp _, AList.lookup_insert _⟩
  refine Does.bind (syncAll_does fun d h => hsame d h.1) fun _ => ?_
  refine Does.bind (R := fun _ d => Sets slot none d₀ d ∧
    d.lookup (.temp id) = some (.regular encoded)) ?_ fun _ => ?_
  · apply Does.each
    rintro d₁ ⟨h₁, htemp⟩
    apply Does.weaken (removeSlotIfPresent_does d₁ slot) (fun _ h => h)
    · rintro _ d ⟨h, hkept⟩
      exact ⟨⟨h.file, h.other.trans (h₁ _)⟩, (hkept id).trans htemp⟩
    · rintro _ rfl
      exact hsame _ h₁
  refine Does.bind (R := fun _ => Sets slot (some (.regular encoded)) d₀) ?_ fun _ =>
    syncAll_does hsets
  · apply orStorage_does
    apply Triple.weaken (rename_spec _ _ fun d h => .inr (.inl h.1)) (fun _ h => h) _ fun _ h => h
    intro r d h
    cases r with
    | error e => exact .inr (.inl h.1)
    | ok u =>
        obtain ⟨d₁, file, ⟨h, htemp⟩, hfile, rfl⟩ := h
        cases htemp.symm.trans hfile
        refine ⟨AList.lookup_insert _, ?_⟩
        rw [AList.lookup_insert_ne (by simp [other_ne]), h.erase_temp.other]

end Writing

/-- What is written is read again. -/
def JournalSerde.ReadsBack (S : JournalSerde) : Prop :=
  ∀ envelope encoded, envelope.formatVersion = journalFormatVersion →
    validateEntries envelope.entries = .ok () → S.toVec envelope = some encoded →
    S.deserializeEnvelope encoded = some envelope

/-- The slot of a generation holds it, and the other one is as it was. -/
structure Publishes (S : JournalSerde) (next : JournalEnvelope) (d₀ d : JournalDirectory) : Prop where
  probe : probeSlot S d next.slot = .valid next
  other : d.lookup (.slot next.slot.other) = d₀.lookup (.slot next.slot.other)

section Publishing

variable {S : JournalSerde} {d₀ : JournalDirectory} {handle : JournalEnvelope}
  {phase : LegacyImportTransactionPhase} {entries : List LegacyImportTransactionEntry}

theorem Publishes.of_sets (hread : S.ReadsBack) {next : JournalEnvelope} {encoded : Bytes}
    {d : JournalDirectory} (hformat : next.formatVersion = journalFormatVersion)
    (hvalid : next.validate S next.slot = true) (hencoded : S.toVec next = some encoded)
    (hlength : ¬maxJournalBytes < encoded.length)
    (h : Sets next.slot (some (.regular encoded)) d₀ d) : Publishes S next d₀ d := by
  refine ⟨?_, h.other⟩
  have hback := hread next encoded hformat (validate_iff.mp hvalid).2.2.2.2.2.2.2.2.1 hencoded
  unfold probeSlot
  simp only [h.file, if_neg hlength, hback, if_pos hvalid]

/-- What may be found where the writing of a generation ends with an error or is stopped. -/
def Unfinished (S : JournalSerde) (next : JournalEnvelope) (d₀ d : JournalDirectory) : Prop :=
  SameSlots d₀ d ∨ Sets next.slot none d₀ d ∨ Publishes S next d₀ d

theorem writeSlot_does (hread : S.ReadsBack) {next : JournalEnvelope}
    (hformat : next.formatVersion = journalFormatVersion)
    (hvalid : next.validate S next.slot = true) :
    Does (SameSlots d₀) (writeSlot S next) (fun _ => Publishes S next d₀)
      (Unfinished S next d₀) := by
  unfold writeSlot
  cases hencoded : S.toVec next with
  | none => exact Does.throw fun _ => .inl
  | some encoded =>
      by_cases hlength : maxJournalBytes < encoded.length
      · simp only [if_pos hlength]
        exact Does.throw fun _ => .inl
      · simp only [if_neg hlength]
        have hpublishes : ∀ d, Sets next.slot (some (.regular encoded)) d₀ d →
            Publishes S next d₀ d :=
          fun _ => Publishes.of_sets hread hformat hvalid hencoded hlength
        have hstopped : ∀ d, Interrupted next.slot encoded d₀ d → Unfinished S next d₀ d := by
          rintro d (h | h | h)
          · exact .inl h
          · exact .inr (.inl h)
          · exact .inr (.inr (hpublishes d h))
        refine Does.bind (Does.always (drawId_spec fun _ => .inl)) fun id => ?_
        refine Does.bind (Does.outcome (Does.weaken publishSlot_does (fun _ h => h) (fun _ _ h => h)
          hstopped)
          (R := fun r d => match r with
            | .ok () => Publishes S next d₀ d
            | .error _ => Unfinished S next d₀ d) (fun _ d h => hpublishes d h)
          fun _ _ h => h) fun result => ?_
        cases result with
        | ok u =>
            apply Does.get
            intro d h
            rw [if_pos h.probe]
            apply Does.pure
            rintro _ rfl
            exact h
        | error error =>
            refine Does.bind (R := fun _ => Unfinished S next d₀)
              (Does.always (Triple.weaken (removeFile_spec _ fun _ h => h) (fun _ h => h) ?_
                fun _ h => h)) fun _ => Does.throw fun _ h => h
            rintro r d (h | ⟨d₁, h, rfl⟩)
            · exact h
            · rcases h with h | h | h
              · exact .inl h.erase_temp
              · exact .inr (.inl h.erase_temp)
              · refine .inr (.inr ⟨?_, ?_⟩)
                · rw [← h.probe]
                  apply probeSlot_congr
                  exact AList.lookup_erase_ne (by simp)
                · rw [AList.lookup_erase_ne (by simp), h.other]

theorem expectCurrent_ok {d : JournalDirectory} (h : expectCurrent S d handle = .ok ()) :
    loadEnvelope S d = .ok (some handle) := by
  unfold expectCurrent at h
  obtain ⟨current, hload, h⟩ := bind_eq_ok.mp h
  cases current with
  | none => cases h
  | some current =>
      by_cases hcurrent : current = handle
      · rw [hload, hcurrent]
      · simp only [if_neg hcurrent] at h
        cases h

/-- A publication acts only on the generation that is loaded.  It leaves the slots as they were, or
the slot of the next generation empty, or with this generation. -/
theorem publishNext_does (hread : S.ReadsBack) (hadvance : Advances handle phase entries)
    (d₀ : JournalDirectory) :
    Does (· = d₀) (publishNext S handle phase entries)
      (fun next d => loadEnvelope S d₀ = .ok (some handle) ∧ NextOf S handle phase entries next ∧
        Publishes S next d₀ d)
      (fun d => SameSlots d₀ d ∨ loadEnvelope S d₀ = .ok (some handle) ∧
        ∃ next, NextOf S handle phase entries next ∧ Unfinished S next d₀ d) := by
  have hsame : ∀ d, d = d₀ → SameSlots d₀ d := by
    rintro _ rfl
    exact SameSlots.refl _
  unfold publishNext
  apply Does.get
  intro d hd
  rw [hd]
  refine Does.bind (R := fun _ d => loadEnvelope S d₀ = .ok (some handle) ∧ d = d₀) ?_ fun _ => ?_
  · exact Does.ofExcept (fun _ hcurrent d h => ⟨expectCurrent_ok hcurrent, h⟩) fun d h =>
      .inl (hsame d h)
  apply Does.assume
  intro hload
  have hvalid := validate_of_probeSlot (probeSlot_of_loadEnvelope hload).1
  refine Does.bind (R := fun next d => NextOf S handle phase entries next ∧ d = d₀) ?_
    fun next => ?_
  · exact Does.ofExcept (fun _ hnext d h => ⟨nextEnvelope_ok hvalid hadvance hnext, h⟩) fun d h =>
      .inl (hsame d h)
  apply Does.assume
  intro hnext
  refine Does.bind (Does.weaken (writeSlot_does hread hnext.format hnext.valid) hsame
    (fun _ _ h => h) fun d h => .inr ⟨hload, next, hnext, h⟩) fun _ => ?_
  exact Does.pure fun d h => ⟨hload, hnext, h⟩

end Publishing

end Netcatty.Desktop
