import Netcatty.Serial.Zmodem.Longer
import Netcatty.Serial.Zmodem.ReceiverSteps

/-! # What the receiver hands over

The receiver hands the rest of its buffer over when it reads `OO`.  A round of the pump goes the
same way with more bytes behind the buffer (`pumpRound_longer`), and so does the whole pump
(`pump_longer`); `Tracks` says what is true of the two runs after every further move of the driver
that pushes no bytes (`tracks_step`). -/

namespace Netcatty.Serial.Zmodem

open WireDecoder (Longer)
open Driver

namespace Receiver

/-! ### The buffer -/

/-- The receiver with another buffer. -/
def withWire (r : Receiver) (wire : WireDecoder) : Receiver := { r with wire }

section Handlers

variable (r : Receiver) (w : WireDecoder)

@[simp] theorem withWire_config : (r.withWire w).config = r.config := rfl
@[simp] theorem withWire_wire : (r.withWire w).wire = w := rfl
@[simp] theorem withWire_state : (r.withWire w).state = r.state := rfl
@[simp] theorem withWire_actions : (r.withWire w).actions = r.actions := rfl
@[simp] theorem withWire_current : (r.withWire w).current = r.current := rfl
@[simp] theorem withWire_fileIndex : (r.withWire w).fileIndex = r.fileIndex := rfl
@[simp] theorem withWire_written : (r.withWire w).written = r.written := rfl
@[simp] theorem withWire_withWire (w' : WireDecoder) :
    (r.withWire w).withWire w' = r.withWire w' := rfl

@[simp] theorem queue_withWire (a : ReceiverAction) :
    (r.withWire w).queue a = (r.queue a).withWire w := by
  unfold queue queueReceiverAction withWire
  simp only
  split_ifs <;> rfl

@[simp] theorem setState_withWire (st : ReceiverState) :
    (r.withWire w).setState st = (r.setState st).withWire w := rfl

@[simp] theorem fail_withWire (e : Error) : (r.withWire w).fail e = (r.fail e).withWire w := by
  simp [fail]

@[simp] theorem sendReceiverInit_withWire (attempts : ℕ) :
    (r.withWire w).sendReceiverInit attempts = (r.sendReceiverInit attempts).withWire w := by
  simp [sendReceiverInit]

@[simp] theorem sendReceiverPosition_withWire (attempts : ℕ) :
    (r.withWire w).sendReceiverPosition attempts =
      (r.sendReceiverPosition attempts).withWire w := by
  simp only [sendReceiverPosition, withWire_written, fail_withWire, queue_withWire,
    setState_withWire]
  split_ifs <;> rfl

@[simp] theorem sendFinish_withWire (attempts : ℕ) :
    (r.withWire w).sendFinish attempts = (r.sendFinish attempts).withWire w := by
  simp [sendFinish]

theorem retry_withWire {send : Receiver → ℕ → Receiver} (e : Error)
    (h : ∀ n, send (r.withWire w) n = (send r n).withWire w) (attempts : ℕ) :
    retry e send (r.withWire w) attempts = (retry e send r attempts).withWire w := by
  simp only [retry, withWire_config, fail_withWire, h]
  split_ifs <;> rfl

@[simp] theorem retryReceiverPosition_withWire (attempts : ℕ) :
    (r.withWire w).retryReceiverPosition attempts =
      (r.retryReceiverPosition attempts).withWire w :=
  retry_withWire r w _ (sendReceiverPosition_withWire r w) _

@[simp] theorem handleEndOfFile_withWire (offset : ℕ) :
    (r.withWire w).handleEndOfFile offset = (r.handleEndOfFile offset).withWire w := by
  cases hcurrent : r.current with
  | none => simp [handleEndOfFile, hcurrent]
  | some metadata =>
      have hcurrent' : (r.withWire w).current = some metadata := hcurrent
      by_cases hmatches : r.Matches metadata offset
      · have hcount : (r.withWire w).countCompleted = r.countCompleted.withWire w := rfl
        have hprogress : (r.withWire w).completeProgress metadata = r.completeProgress metadata :=
          rfl
        have hadvance : ∀ v : Receiver, (v.withWire w).advance = v.advance.withWire w :=
          fun _ => rfl
        rw [handleEndOfFile_of_matches hcurrent hmatches,
          handleEndOfFile_of_matches hcurrent' hmatches, hcount, hprogress]
        simp only [queue_withWire, hadvance, sendReceiverInit_withWire, withWire_fileIndex,
          withWire_written]
      · rw [handleEndOfFile_of_not_matches hcurrent hmatches,
          handleEndOfFile_of_not_matches hcurrent' hmatches, retryReceiverPosition_withWire]

/-- No header touches the buffer. -/
@[simp] theorem handleReceiverHeader_withWire (decoded : DecodedHeader) :
    (r.withWire w).handleReceiverHeader decoded = (r.handleReceiverHeader decoded).withWire w := by
  unfold handleReceiverHeader
  simp only [withWire_state, withWire_written, fail_withWire]
  by_cases habort : decoded.header.frameType = .abort ∨ decoded.header.frameType = .fileError
  · rw [if_pos habort, if_pos habort]
  rw [if_neg habort, if_neg habort]
  cases r.state with
  | awaitHeader attempts =>
      simp only
      split
      · exact sendReceiverInit_withWire r w _
      · rfl
      · rfl
      · exact sendFinish_withWire r w _
      · exact queue_withWire r w _
      · rfl
  | awaitDataHeader attempts =>
      simp only
      split
      · by_cases hoffset : decoded.header.offset = r.written
        · rw [if_pos hoffset]
          exact if_pos hoffset
        · rw [if_neg hoffset]
          exact (if_neg hoffset).trans (retryReceiverPosition_withWire r w _)
      · exact handleEndOfFile_withWire r w _
      · rfl
  | awaitEndOfFile attempts =>
      simp only
      split
      · exact handleEndOfFile_withWire r w _
      · by_cases hoffset : decoded.header.offset = r.written
        · rw [if_pos hoffset]
          exact if_pos hoffset
        · rw [if_neg hoffset]
          exact if_neg hoffset
      · rfl
  | awaitSenderInitData | awaitMetadata | awaitAcceptance | awaitData | awaitSink
  | awaitOverAndOut | terminal => rfl

@[simp] theorem handleReceiverSubpacket_withWire (packet : Subpacket) (checksum : Checksum) :
    (r.withWire w).handleReceiverSubpacket packet checksum =
      (r.handleReceiverSubpacket packet checksum).withWire w := by
  unfold handleReceiverSubpacket
  simp only [withWire_state, withWire_current, withWire_written, withWire_fileIndex, fail_withWire,
    queue_withWire]
  cases r.state with
  | awaitSenderInitData checksum attempts =>
      simp only
      split_ifs <;> rfl
  | awaitMetadata checksum attempts =>
      simp only
      by_cases hend : packet.frameEnd.endsFrame = true
      · rw [if_neg (not_not.mpr hend), if_neg (not_not.mpr hend)]
        cases parseFileMetadata packet.payload with
        | error e => rfl
        | ok metadata =>
            simp only
            by_cases hfull : r.fileIndex ≥ maxBatchFiles
            · rw [if_pos hfull, if_pos hfull]
            · rw [if_neg hfull, if_neg hfull]
              exact congrArg (setState · .awaitAcceptance) (queue_withWire
                { r with
                  state := .awaitMetadata checksum attempts
                  advertisedTotalBytes :=
                    saturatingAdd r.advertisedTotalBytes metadata.totalBytes
                  current := some metadata } w (.offerFile r.fileIndex metadata))
      · rw [if_pos hend, if_pos hend]
  | awaitData checksum attempts =>
      simp only
      split
      · rfl
      · split_ifs <;> rfl
  | awaitHeader | awaitDataHeader | awaitAcceptance | awaitEndOfFile | awaitSink
  | awaitOverAndOut | terminal => rfl

theorem beginFile_eq (metadata : FileMetadata) : r.beginFile metadata =
    ((r.rewind.queue (.beginFile r.fileIndex metadata)).queue (.progress {
      fileIndex := r.fileIndex
      fileCount := metadata.filesRemaining.getD 0
      transferredBytes := 0
      totalBytes := metadata.totalBytes
      stage := .header })).sendReceiverPosition 1 := by
  unfold beginFile
  simp only [queue_fileIndex]
  rfl

@[simp] theorem beginFile_withWire (metadata : FileMetadata) :
    (r.withWire w).beginFile metadata = (r.beginFile metadata).withWire w := by
  have hrewind : (r.withWire w).rewind = r.rewind.withWire w := rfl
  rw [beginFile_eq, beginFile_eq, hrewind]
  simp only [queue_withWire, withWire_fileIndex, sendReceiverPosition_withWire]

@[simp] theorem dropFile_withWire : (r.withWire w).dropFile = r.dropFile.withWire w := by
  have hpass : ∀ v : Receiver, (v.withWire w).passOver = v.passOver.withWire w := fun _ => rfl
  unfold dropFile
  simp only [queue_withWire]
  exact (congrArg (sendReceiverInit · 1) (hpass _)).trans (sendReceiverInit_withWire _ w _)

@[simp] theorem reportWrite_withWire (metadata : FileMetadata) (frameEnd : FrameEnd)
    (checksum : Checksum) (attempts : ℕ) :
    (r.withWire w).reportWrite metadata frameEnd checksum attempts =
      (r.reportWrite metadata frameEnd checksum attempts).withWire w := by
  have hhint : (r.withWire w).currentFileCountHint = r.currentFileCountHint := rfl
  unfold reportWrite
  simp only [withWire_fileIndex, withWire_written, hhint, queue_withWire]
  split_ifs <;> rfl

end Handlers

/-! ### Completion -/

/-- The batch is complete, and `bytes` were handed over. -/
def Completes (r : Receiver) (bytes : List UInt8) : Prop :=
  r.state = .terminal ∧ ∃ summary, r.actions.getLast? = some (.batchCompleted summary bytes)

/-- The batch is not complete: a terminal receiver has queued something else last. -/
def Incomplete (r : Receiver) : Prop :=
  r.state = .terminal → ∃ a, r.actions.getLast? = some a ∧
    ∀ summary bytes, a ≠ .batchCompleted summary bytes

/-- The next step is the driver's: to accept or skip a file, or to confirm a write. -/
def AwaitsDriver (r : Receiver) : Prop :=
  r.state = .awaitAcceptance ∨ ∃ n frameEnd checksum attempts,
    r.state = .awaitSink n frameEnd checksum attempts

theorem incomplete_of_state {r : Receiver} (h : r.state ≠ .terminal) : r.Incomplete :=
  fun hterminal => absurd hterminal h

theorem AwaitsDriver.not_terminal {r : Receiver} (h : r.AwaitsDriver) : r.state ≠ .terminal := by
  rcases h with h | ⟨n, frameEnd, checksum, attempts, h⟩ <;> simp [h]

/-- The last action is the one queued, or reports that there was no room for it. -/
theorem last_queue (r : Receiver) (a : ReceiverAction) :
    (r.Room 1 ∧ (r.queue a).actions.getLast? = some a) ∨
      (r.queue a).actions.getLast? = some (.failed (.actionQueueFull maxPendingActions)) := by
  by_cases h : r.Room 1
  · rw [queue_of_room h]
    exact .inl ⟨h, by simp⟩
  · exact .inr (by rw [queue_of_full h]; rfl)

/-- The batch is not complete, and only more bytes can complete it. -/
structure Stuck (r : Receiver) : Prop where
  driver : ¬ r.AwaitsDriver
  incomplete : r.Incomplete

section Rules

variable (r : Receiver)

theorem incomplete_queue {a : ReceiverAction}
    (ha : ∀ summary bytes, a ≠ .batchCompleted summary bytes) : (r.queue a).Incomplete := by
  intro _
  rcases last_queue r a with ⟨-, h⟩ | h
  · exact ⟨_, h, ha⟩
  · exact ⟨_, h, fun _ _ => nofun⟩

theorem stuck_fail (e : Error) : (r.fail e).Stuck where
  driver h := h.not_terminal rfl
  incomplete := by
    intro _
    rcases last_queue r (.failed e) with ⟨-, h⟩ | h
    · exact ⟨_, h, fun _ _ => nofun⟩
    · exact ⟨_, h, fun _ _ => nofun⟩

theorem stuck_sendReceiverInit (attempts : ℕ) : (r.sendReceiverInit attempts).Stuck where
  driver := by simp [AwaitsDriver, sendReceiverInit]
  incomplete := incomplete_of_state (by simp [sendReceiverInit])

theorem stuck_sendReceiverPosition (attempts : ℕ) : (r.sendReceiverPosition attempts).Stuck := by
  unfold sendReceiverPosition
  split_ifs
  · exact stuck_fail r _
  · exact ⟨by simp [AwaitsDriver], incomplete_of_state (by simp)⟩

theorem stuck_sendFinish (attempts : ℕ) : (r.sendFinish attempts).Stuck where
  driver := by simp [AwaitsDriver, sendFinish]
  incomplete := incomplete_of_state (by simp [sendFinish])

theorem stuck_retry {send : Receiver → ℕ → Receiver} (e : Error) (h : ∀ n, (send r n).Stuck)
    (attempts : ℕ) : (retry e send r attempts).Stuck := by
  unfold retry
  split_ifs
  · exact stuck_fail r _
  · exact h _

theorem stuck_recoverCorruptInput : r.recoverCorruptInput.Stuck := by
  unfold recoverCorruptInput
  simp only
  split
  · exact stuck_retry _ _ (stuck_sendReceiverPosition _) _
  · exact stuck_retry _ _ (stuck_sendReceiverPosition _) _
  · exact stuck_retry _ _ (stuck_sendReceiverPosition _) _
  · exact stuck_retry _ _ (stuck_sendReceiverInit _) _
  · exact stuck_retry _ _ (stuck_sendReceiverInit _) _
  · exact stuck_retry _ _ (stuck_sendReceiverInit _) _
  · exact stuck_fail _ _

theorem incomplete_handleEndOfFile (offset : ℕ) : (r.handleEndOfFile offset).Incomplete := by
  cases hcurrent : r.current with
  | none =>
      simp only [handleEndOfFile, hcurrent]
      exact (stuck_fail r _).incomplete
  | some metadata =>
      by_cases hmatches : r.Matches metadata offset
      · rw [handleEndOfFile_of_matches hcurrent hmatches]
        exact (stuck_sendReceiverInit _ _).incomplete
      · rw [handleEndOfFile_of_not_matches hcurrent hmatches]
        exact (stuck_retry r _ (stuck_sendReceiverPosition r) _).incomplete

theorem incomplete_handleReceiverHeader (decoded : DecodedHeader) :
    (r.handleReceiverHeader decoded).Incomplete := by
  unfold handleReceiverHeader
  simp only
  by_cases habort : decoded.header.frameType = .abort ∨ decoded.header.frameType = .fileError
  · rw [if_pos habort]
    exact (stuck_fail r _).incomplete
  rw [if_neg habort]
  cases r.state with
  | awaitHeader attempts =>
      simp only
      split
      · exact (stuck_sendReceiverInit r _).incomplete
      · exact incomplete_of_state (by simp)
      · exact incomplete_of_state (by simp)
      · exact (stuck_sendFinish r _).incomplete
      · exact incomplete_queue r fun _ _ => nofun
      · exact incomplete_of_state (by simp)
  | awaitDataHeader attempts =>
      simp only
      split
      · split_ifs
        · exact incomplete_of_state (by simp)
        · exact (stuck_retry r _ (stuck_sendReceiverPosition r) _).incomplete
      · exact incomplete_handleEndOfFile r _
      · exact incomplete_of_state (by simp)
  | awaitEndOfFile attempts =>
      simp only
      split
      · exact incomplete_handleEndOfFile r _
      · split_ifs
        · exact incomplete_of_state (by simp)
        · exact incomplete_of_state (by simp)
      · exact incomplete_of_state (by simp)
  | awaitSenderInitData | awaitMetadata | awaitAcceptance | awaitData | awaitSink
  | awaitOverAndOut | terminal => exact (stuck_fail r _).incomplete

theorem incomplete_handleReceiverSubpacket (packet : Subpacket) (checksum : Checksum) :
    (r.handleReceiverSubpacket packet checksum).Incomplete := by
  unfold handleReceiverSubpacket
  simp only
  cases r.state with
  | awaitSenderInitData checksum attempts => exact incomplete_of_state (by simp)
  | awaitMetadata checksum attempts =>
      simp only
      by_cases hend : packet.frameEnd.endsFrame = true
      · rw [if_neg (not_not.mpr hend)]
        cases parseFileMetadata packet.payload with
        | error e => exact (stuck_fail r _).incomplete
        | ok metadata =>
            simp only
            split_ifs
            · exact (stuck_fail r _).incomplete
            · exact incomplete_of_state (by simp)
      · rw [if_pos hend]
        exact (stuck_fail r _).incomplete
  | awaitData checksum attempts =>
      simp only
      split
      · exact (stuck_fail r _).incomplete
      · split_ifs
        · exact (stuck_fail r _).incomplete
        · exact incomplete_of_state (by simp)
  | awaitHeader | awaitDataHeader | awaitAcceptance | awaitEndOfFile | awaitSink
  | awaitOverAndOut | terminal => exact (stuck_fail r _).incomplete

end Rules

/-! ### Rounds -/

variable {r t : Receiver} {w : WireDecoder} {u : List UInt8}

/-- The pump stops where the driver is awaited or more bytes are. -/
theorem pumpRound_last (hr : r.state ≠ .terminal) (h : r.pumpRound = (t, false)) :
    (r.AwaitsDriver ∧ t = r) ∨ t.Stuck := by
  have hsame : ∀ {wire : WireDecoder}, ¬ r.AwaitsDriver → (r.withWire wire).Stuck :=
    fun hnot => ⟨hnot, incomplete_of_state hr⟩
  have hheader : ¬ r.AwaitsDriver → r.pumpHeader = (t, false) → t.Stuck := by
    intro hnot h
    unfold pumpHeader at h
    split at h
    · cases h
    all_goals
      obtain ⟨rfl, -⟩ := Prod.mk.inj h
    · exact hsame hnot
    · exact stuck_fail _ _
    · exact stuck_recoverCorruptInput _
    · exact stuck_recoverCorruptInput _
    · exact stuck_fail _ _
  have hsubpacket : ∀ checksum, ¬ r.AwaitsDriver → r.pumpSubpacket checksum = (t, false) →
      t.Stuck := by
    intro checksum hnot h
    unfold pumpSubpacket at h
    split at h
    · cases h
    all_goals
      obtain ⟨rfl, -⟩ := Prod.mk.inj h
    · exact hsame hnot
    · exact stuck_recoverCorruptInput _
    · exact stuck_recoverCorruptInput _
    · exact stuck_fail _ _
    · exact stuck_fail _ _
  unfold pumpRound at h
  split at h
  · rename_i hstate
    exact .inr (hheader (by simp [AwaitsDriver, hstate]) h)
  · rename_i hstate
    exact .inr (hheader (by simp [AwaitsDriver, hstate]) h)
  · rename_i hstate
    exact .inr (hheader (by simp [AwaitsDriver, hstate]) h)
  · rename_i hstate
    exact .inr (hsubpacket _ (by simp [AwaitsDriver, hstate]) h)
  · rename_i hstate
    exact .inr (hsubpacket _ (by simp [AwaitsDriver, hstate]) h)
  · rename_i hstate
    exact .inr (hsubpacket _ (by simp [AwaitsDriver, hstate]) h)
  · rename_i hstate
    unfold pumpOverAndOut at h
    split at h
    · cases h
    · obtain ⟨rfl, -⟩ := Prod.mk.inj h
      exact .inr (hsame (by simp [AwaitsDriver, hstate]))
    · obtain ⟨rfl, -⟩ := Prod.mk.inj h
      exact .inr (stuck_fail _ _)
  · rename_i hstate
    exact .inl ⟨.inl hstate, (Prod.mk.inj h).1.symm⟩
  · rename_i hstate
    exact .inl ⟨.inr ⟨_, _, _, _, hstate⟩, (Prod.mk.inj h).1.symm⟩
  · rename_i hstate
    exact absurd hstate hr

/-- What a round has taken off the buffer: a header or a subpacket, or the marker that ends the
batch. -/
inductive Taken (r : Receiver) : Receiver → Prop where
  | header {wire : WireDecoder} {decoded : DecodedHeader}
      (hnext : r.wire.nextHeader = (wire, .ok (some decoded)))
      (hround : ∀ v, (r.withWire v).pumpRound = (r.withWire v).pumpHeader) :
      Taken r ((r.withWire wire).handleReceiverHeader decoded)
  | subpacket {wire : WireDecoder} {packet : Subpacket} {checksum : Checksum}
      (hnext : r.wire.nextSubpacket checksum = (wire, .ok (some packet)))
      (hround : ∀ v, (r.withWire v).pumpRound = (r.withWire v).pumpSubpacket checksum) :
      Taken r ((r.withWire wire).handleReceiverSubpacket packet checksum)
  | overAndOut {wire : WireDecoder} (hnext : r.wire.nextOverAndOut = (wire, .ok true))
      (hround : ∀ v, (r.withWire v).pumpRound = (r.withWire v).pumpOverAndOut) :
      Taken r (r.withWire wire).completeBatch

theorem taken_of_pumpRound (h : r.pumpRound = (t, true)) : r.Taken t := by
  have hheader : r.pumpHeader = (t, true) →
      (∀ v, (r.withWire v).pumpRound = (r.withWire v).pumpHeader) → r.Taken t := by
    intro h hround
    unfold pumpHeader at h
    split at h
    · rename_i hnext
      obtain ⟨rfl, -⟩ := Prod.mk.inj h
      exact .header hnext hround
    all_goals cases h
  have hsubpacket : ∀ checksum, r.pumpSubpacket checksum = (t, true) →
      (∀ v, (r.withWire v).pumpRound = (r.withWire v).pumpSubpacket checksum) → r.Taken t := by
    intro checksum h hround
    unfold pumpSubpacket at h
    split at h
    · rename_i hnext
      obtain ⟨rfl, -⟩ := Prod.mk.inj h
      exact .subpacket hnext hround
    all_goals cases h
  unfold pumpRound at h
  split at h
  · rename_i hstate
    exact hheader h fun v => by simp [pumpRound, hstate]
  · rename_i hstate
    exact hheader h fun v => by simp [pumpRound, hstate]
  · rename_i hstate
    exact hheader h fun v => by simp [pumpRound, hstate]
  · rename_i hstate
    exact hsubpacket _ h fun v => by simp [pumpRound, hstate]
  · rename_i hstate
    exact hsubpacket _ h fun v => by simp [pumpRound, hstate]
  · rename_i hstate
    exact hsubpacket _ h fun v => by simp [pumpRound, hstate]
  · rename_i hstate
    unfold pumpOverAndOut at h
    split at h
    · rename_i hnext
      obtain ⟨rfl, -⟩ := Prod.mk.inj h
      exact .overAndOut hnext fun v => by simp [pumpRound, hstate]
    all_goals cases h
  all_goals cases h

/-- **A round goes the same way with more bytes behind the buffer**: it keeps them there, or hands
them over with the rest. -/
theorem pumpRound_longer (hu : u.head? ≠ some xon) (hroom : r.Room 1) (hw : Longer u r.wire w)
    (h : r.pumpRound = (t, true)) :
    (∃ w', (r.withWire w).pumpRound = (t.withWire w', true) ∧ Longer u t.wire w' ∧
      t.Incomplete) ∨
    ∃ bytes t', t.Completes bytes ∧ (r.withWire w).pumpRound = (t', true) ∧
      t'.Completes (bytes ++ u) := by
  cases taken_of_pumpRound h with
  | @header wire decoded hnext hround =>
      obtain ⟨w', hnext', hw'⟩ := WireDecoder.nextHeader_longer hu hnext hw
      refine .inl ⟨w', ?_, ?_, incomplete_handleReceiverHeader _ _⟩
      · rw [hround, pumpHeader, withWire_wire, hnext', ← handleReceiverHeader_withWire]
        rfl
      · rw [handleReceiverHeader_withWire]
        exact hw'
  | @subpacket wire packet checksum hnext hround =>
      obtain ⟨w', hnext', hw'⟩ := WireDecoder.nextSubpacket_longer hnext hw
      refine .inl ⟨w', ?_, ?_, incomplete_handleReceiverSubpacket _ _ _⟩
      · rw [hround, pumpSubpacket, withWire_wire, hnext', ← handleReceiverSubpacket_withWire]
        rfl
      · rw [handleReceiverSubpacket_withWire]
        exact hw'
  | @overAndOut wire hnext hround =>
      obtain ⟨w', hnext', hinput⟩ := WireDecoder.nextOverAndOut_longer hnext hw
      have hcompletes : ∀ v : WireDecoder, (r.withWire v).completeBatch.Completes v.input := by
        intro v
        have hclosed : (r.withWire {}).Room 1 := hroom
        refine ⟨rfl, {
          fileCount := r.fileIndex
          completedFiles := r.completedFiles
          skippedFiles := r.skippedFiles
          totalBytes := r.advertisedTotalBytes
          transferredBytes := r.transferredBytes }, ?_⟩
        have hqueue := queue_of_room hclosed (.batchCompleted {
          fileCount := r.fileIndex
          completedFiles := r.completedFiles
          skippedFiles := r.skippedFiles
          totalBytes := r.advertisedTotalBytes
          transferredBytes := r.transferredBytes } v.input)
        exact (congrArg (fun q : Receiver => q.actions.getLast?) hqueue).trans (by simp)
      refine .inr ⟨wire.input, _, hcompletes wire, ?_, hinput ▸ hcompletes w'⟩
      rw [hround, pumpOverAndOut, withWire_wire, hnext']
      rfl

theorem pumpRound_dry (hdry : r.wire.Dry) : r.pumpRound ≠ (t, true) := by
  intro h
  cases taken_of_pumpRound h with
  | header hnext _ => exact (WireDecoder.nextHeader_dry hdry).2 _ (congrArg Prod.snd hnext)
  | subpacket hnext _ => exact (WireDecoder.nextSubpacket_dry _ hdry).2 _ (congrArg Prod.snd hnext)
  | overAndOut hnext _ => exact (WireDecoder.nextOverAndOut_dry hdry).2 (congrArg Prod.snd hnext)

/-! ### The pump -/

theorem pump_terminal (h : r.state = .terminal) : r.pump = r :=
  pump_stop (by simp [running, isTerminal_iff.mpr h])

/-- A buffer that holds nothing to take completes no batch. -/
theorem pump_dry (hr : r.Incomplete) (hdry : r.wire.Dry) :
    r.pump.Incomplete ∧ (r.pump.AwaitsDriver → r.pump.wire.Dry) := by
  cases hgo : r.running with
  | false =>
      rw [pump_stop hgo]
      exact ⟨hr, fun _ => hdry⟩
  | true =>
      rcases hround : r.pumpRound with ⟨t, more⟩
      cases more with
      | false =>
          rw [pump_last hgo hround]
          rcases pumpRound_last (not_terminal_of_running hgo) hround with ⟨-, rfl⟩ | hstuck
          · exact ⟨hr, fun _ => hdry⟩
          · exact ⟨hstuck.incomplete, fun h => absurd h hstuck.driver⟩
      | true => exact absurd hround (pumpRound_dry hdry)

/-- **The pump goes the same way with more bytes behind the buffer**: it leaves them there where it
stops for the driver, and hands them over where it completes the batch. -/
theorem pump_longer (hu : u.head? ≠ some xon) (hr : r.state ≠ .terminal)
    (hw : Longer u r.wire w) :
    (∃ w', (r.withWire w).pump = r.pump.withWire w' ∧ Longer u r.pump.wire w' ∧
      r.pump.AwaitsDriver) ∨
    r.pump.Stuck ∨
    ∃ bytes, r.pump.Completes bytes ∧ (r.withWire w).pump.Completes (bytes ++ u) := by
  induction hn : r.wire.input.length using Nat.strong_induction_on generalizing r w with
  | _ n ih =>
  subst hn
  cases hgo : r.running with
  | false =>
      have hgo' : (r.withWire w).running = false := hgo
      rw [pump_stop hgo, pump_stop hgo']
      by_cases hdriver : r.AwaitsDriver
      · exact .inl ⟨w, rfl, hw, hdriver⟩
      · exact .inr (.inl ⟨hdriver, incomplete_of_state hr⟩)
  | true =>
      have hgo' : (r.withWire w).running = true := hgo
      rcases hround : r.pumpRound with ⟨t, more⟩
      cases more with
      | false =>
          rw [pump_last hgo hround]
          rcases pumpRound_last hr hround with ⟨hdriver, rfl⟩ | hstuck
          · have hround' : (t.withWire w).pumpRound = (t.withWire w, false) := by
              rcases hdriver with h | ⟨n, frameEnd, checksum, attempts, h⟩ <;> simp [pumpRound, h]
            rw [pump_last hgo' hround']
            exact .inl ⟨w, rfl, hw, hdriver⟩
          · exact .inr (.inl hstuck)
      | true =>
          rw [pump_next hgo hround]
          have hshorter := pumpRound_shortens hround
          rcases pumpRound_longer hu (room_one_of_running hgo) hw hround with
            ⟨w', hround', hw', hincomplete⟩ | ⟨bytes, t', hcomplete, hround', hcomplete'⟩
          · rw [pump_next hgo' hround']
            by_cases ht : t.state = .terminal
            · rw [pump_terminal ht]
              exact .inr (.inl ⟨fun h => h.not_terminal ht, hincomplete⟩)
            · exact ih _ hshorter ht hw' rfl
          · rw [pump_next hgo' hround', pump_terminal hcomplete.1, pump_terminal hcomplete'.1]
            exact .inr (.inr ⟨bytes, hcomplete, hcomplete'⟩)

/-! ### Calls -/

/-- The driver answers the receiver. -/
def Answers : ReceiverCall → Prop
  | .acceptFile | .skipFile | .confirmFileWrite _ => True
  | _ => False

theorem pumped_withWire {c : ReceiverCall} (hc : Answers c) (w : WireDecoder) :
    (r.withWire w).pumped c = (r.pumped c).map fun v => v.withWire w := by
  cases c with
  | acceptFile =>
      unfold pumped
      simp only [withWire_state, withWire_current]
      split
      · simp
      · rfl
  | skipFile =>
      unfold pumped
      simp only [withWire_state]
      split
      · simp
      · rfl
  | confirmFileWrite writtenBytes =>
      unfold pumped
      simp only [withWire_state, withWire_current]
      split
      · rename_i exactBytes frameEnd checksum attempts metadata hstate hcurrent
        by_cases hwritten : writtenBytes = exactBytes ∧
            r.written + writtenBytes ≤ metadata.totalBytes
        · rw [if_pos hwritten]
          refine (if_pos hwritten).trans (congrArg some ?_)
          exact reportWrite_withWire { r with written := r.written + writtenBytes } w metadata
            frameEnd checksum attempts
        · rw [if_neg hwritten]
          exact if_neg hwritten
      · rfl
  | pushSerialBytes | onTimeout | cancel => exact hc.elim

/-- An answer that runs the pump has been awaited. -/
theorem awaited_of_pumped {c : ReceiverCall} {v : Receiver} (hc : Answers c)
    (h : r.pumped c = some v) : v.state ≠ .terminal ∧ r.AwaitsDriver := by
  cases c with
  | acceptFile =>
      unfold pumped at h
      simp only at h
      split at h
      · rename_i metadata hstate hcurrent
        obtain rfl := Option.some.inj h
        refine ⟨?_, .inl hstate⟩
        rw [beginFile_eq, sendReceiverPosition, if_neg (by simp [rewind])]
        simp
      · cases h
  | skipFile =>
      unfold pumped at h
      simp only at h
      split at h
      · rename_i hstate
        obtain rfl := Option.some.inj h
        exact ⟨by simp [dropFile, sendReceiverInit], .inl hstate⟩
      · cases h
  | confirmFileWrite writtenBytes =>
      unfold pumped at h
      simp only at h
      split at h
      · rename_i exactBytes frameEnd checksum attempts metadata hstate hcurrent
        split_ifs at h with hwritten
        obtain rfl := Option.some.inj h
        refine ⟨?_, .inr ⟨_, _, _, _, hstate⟩⟩
        unfold reportWrite
        simp only [setState_state]
        split_ifs <;> simp
      · cases h
  | pushSerialBytes | onTimeout | cancel => exact hc.elim

/-- An answer that runs no pump goes the same way with any buffer. -/
theorem refused_answer {c : ReceiverCall} (hc : Answers c) (h : r.pumped c = none) :
    ((r.call c).1.Stuck ∨ (r.call c).1.state = r.state) ∧
      ∀ w, ((r.withWire w).call c).1 = (r.call c).1.withWire w := by
  have hnone : ∀ w, (r.withWire w).pumped c = none := fun w => by
    rw [pumped_withWire hc, h]
    rfl
  cases c with
  | acceptFile =>
      refine ⟨.inr ?_, fun w => ?_⟩
      · rw [call, acceptFile_of_not_pumped h]
      · rw [call, call, acceptFile_of_not_pumped h, acceptFile_of_not_pumped (hnone w)]
  | skipFile =>
      refine ⟨.inr ?_, fun w => ?_⟩
      · rw [call, skipFile_of_not_pumped h]
      · rw [call, call, skipFile_of_not_pumped h, skipFile_of_not_pumped (hnone w)]
  | confirmFileWrite writtenBytes =>
      unfold pumped at h
      simp only [call, confirmFileWrite] at h ⊢
      cases hstate : r.state with
      | awaitSink exactBytes frameEnd checksum attempts =>
          simp only [withWire_state, hstate] at h ⊢
          by_cases hexact : writtenBytes = exactBytes
          · simp only [if_neg (not_not.mpr hexact)]
            cases hcurrent : r.current with
            | none =>
                simp only [withWire_current, hcurrent]
                exact ⟨.inr trivial, fun w => rfl⟩
            | some metadata =>
                have hmore : r.written + writtenBytes > metadata.totalBytes := by
                  simp only [hcurrent] at h
                  by_contra hle
                  rw [if_pos ⟨hexact, by omega⟩] at h
                  cases h
                simp only [withWire_current, withWire_written, hcurrent, if_pos hmore]
                exact ⟨.inl (stuck_fail _ _), fun w => fail_withWire
                  { r with
                    state := .awaitSink exactBytes frameEnd checksum attempts
                    current := some metadata
                    written := r.written + writtenBytes } w _⟩
          · simp only [if_pos hexact]
            exact ⟨.inl (stuck_fail r _), fun w => fail_withWire r w _⟩
      | awaitHeader | awaitSenderInitData | awaitMetadata | awaitAcceptance | awaitDataHeader
      | awaitData | awaitEndOfFile | awaitOverAndOut | terminal =>
          simp only [withWire_state, hstate]
          exact ⟨.inr trivial, fun _ => trivial⟩
  | pushSerialBytes | onTimeout | cancel => exact hc.elim

theorem wire_of_pumped {c : ReceiverCall} {v : Receiver} (hc : Answers c)
    (h : r.pumped c = some v) : v.wire = r.wire := by
  have hwith : r.pumped c = (r.pumped c).map fun v => v.withWire r.wire :=
    pumped_withWire hc r.wire
  rw [h] at hwith
  have heq : v = v.withWire r.wire := Option.some.inj hwith
  rw [heq, withWire_wire]

theorem wire_of_refused {c : ReceiverCall} (hc : Answers c) (h : r.pumped c = none) :
    (r.call c).1.wire = r.wire := by
  have heq : (r.call c).1 = (r.call c).1.withWire r.wire := (refused_answer hc h).2 r.wire
  rw [heq, withWire_wire]

theorem stuck_cancel (hr : r.state ≠ .terminal) : (r.call .cancel).1.Stuck := by
  simp only [call, cancel]
  rw [if_neg (by simpa [isTerminal_iff] using hr)]
  exact stuck_fail _ _

/-- After a timeout the buffer is empty. -/
theorem onTimeout_spec (hr : r.state ≠ .terminal) :
    (r.onTimeout).1.Incomplete ∧ ((r.onTimeout).1.AwaitsDriver → (r.onTimeout).1.wire.Dry) := by
  have hstuck : ∀ {v : Receiver}, v.Stuck →
      v.Incomplete ∧ (v.AwaitsDriver → v.wire.Dry) :=
    fun h => ⟨h.incomplete, fun hdriver => absurd hdriver h.driver⟩
  have hnak : ∀ {v : Receiver} (attempts : ℕ), (v.setState (.awaitHeader attempts)).Stuck :=
    fun _ => ⟨by simp [AwaitsDriver], incomplete_of_state (by simp)⟩
  unfold onTimeout
  rw [if_neg (by simpa [isTerminal_iff] using hr)]
  simp only [WireDecoder.reset]
  split
  · exact hstuck (stuck_retry _ _ (stuck_sendReceiverInit _) _)
  · split_ifs
    · exact hstuck (stuck_fail _ _)
    · exact hstuck (hnak _)
  · split_ifs
    · exact hstuck (stuck_fail _ _)
    · exact hstuck (hnak _)
  · exact hstuck (stuck_retry _ _ (stuck_sendReceiverPosition _) _)
  · exact hstuck (stuck_retry _ _ (stuck_sendReceiverPosition _) _)
  · exact hstuck (stuck_retry _ _ (stuck_sendReceiverPosition _) _)
  · exact hstuck (stuck_retry _ _ (stuck_sendFinish _) _)
  · exact ⟨incomplete_of_state hr, fun _ => WireDecoder.dry_empty⟩
  · exact ⟨incomplete_of_state hr, fun _ => WireDecoder.dry_empty⟩
  · rename_i hstate
    exact absurd hstate hr

/-! ### Moves -/

/-- The receiver and its driver have seen the batch complete, with `bytes` handed over. -/
def Finishes (d : Driven Receiver ReceiverAction) (bytes : List UInt8) : Prop :=
  d.machine.state = .terminal ∧
    ∃ summary, (actor.log d).getLast? = some (.batchCompleted summary bytes)

theorem Finishes.unique {d : Driven Receiver ReceiverAction} {bytes bytes' : List UInt8}
    (h : Finishes d bytes) (h' : Finishes d bytes') : bytes = bytes' := by
  obtain ⟨-, summary, hlast⟩ := h
  obtain ⟨-, summary', hlast'⟩ := h'
  have := hlast.symm.trans hlast'
  simp only [Option.some.injEq, ReceiverAction.batchCompleted.injEq] at this
  exact this.2

theorem Completes.finishes {bytes : List UInt8} (h : r.Completes bytes)
    (taken : List ReceiverAction) : Finishes ⟨r, taken⟩ bytes := by
  obtain ⟨hterminal, summary, hlast⟩ := h
  refine ⟨hterminal, summary, ?_⟩
  change (taken ++ r.actions).getLast? = _
  rw [List.getLast?_append, hlast, Option.some_or]

theorem Incomplete.not_finishes (h : r.Incomplete) (taken : List ReceiverAction)
    (bytes : List UInt8) : ¬ Finishes ⟨r, taken⟩ bytes := by
  rintro ⟨hterminal, summary, hlast⟩
  obtain ⟨a, ha, hne⟩ := h hterminal
  change (taken ++ r.actions).getLast? = _ at hlast
  rw [List.getLast?_append, ha, Option.some_or] at hlast
  exact hne summary bytes (Option.some.inj hlast)

/-- A move of the driver that pushes no bytes. -/
def Quiet : Move ReceiverCall → Prop
  | .call (.pushSerialBytes _) => False
  | _ => True

/-- No quiet move completes the batch. -/
structure Stalled (d : Driven Receiver ReceiverAction) : Prop where
  wire : d.machine.AwaitsDriver → d.machine.wire.Dry
  unfinished : ∀ bytes, ¬ Finishes d bytes

theorem Stuck.stalled (h : r.Stuck) (taken : List ReceiverAction) : Stalled ⟨r, taken⟩ :=
  ⟨fun hdriver => absurd hdriver h.driver, h.incomplete.not_finishes taken⟩

theorem stalled_step {d : Driven Receiver ReceiverAction} {m : Move ReceiverCall}
    (h : Stalled d) (hm : Quiet m) : Stalled (actor.step d m) := by
  cases m with
  | take =>
      refine ⟨h.wire, fun bytes hfinishes => h.unfinished bytes ⟨hfinishes.1, ?_⟩⟩
      obtain ⟨-, summary, hlast⟩ := hfinishes
      rw [actor.log_take] at hlast
      exact ⟨summary, hlast⟩
  | call c =>
      by_cases hr : d.machine.state = .terminal
      · have hsame : actor.step d (.call c) = d := by
          have := call_of_terminal hr c
          simp only [Actor.step, actor, this]
        rwa [hsame]
      have hcall : (d.machine.call c).1.Incomplete ∧
          ((d.machine.call c).1.AwaitsDriver → (d.machine.call c).1.wire.Dry) := by
        have hanswer : Answers c → (d.machine.call c).1.Incomplete ∧
            ((d.machine.call c).1.AwaitsDriver → (d.machine.call c).1.wire.Dry) := by
          intro hc
          cases hp : d.machine.pumped c with
          | some v =>
              obtain ⟨hv, hdriver⟩ := awaited_of_pumped hc hp
              have hwire : v.wire = d.machine.wire := wire_of_pumped hc hp
              rw [call_of_pumped hp]
              exact pump_dry (incomplete_of_state hv) (hwire ▸ h.wire hdriver)
          | none =>
              rcases (refused_answer hc hp).1 with hstuck | hstate
              · exact ⟨hstuck.incomplete, fun hdriver => absurd hdriver hstuck.driver⟩
              · refine ⟨incomplete_of_state (hstate ▸ hr), fun hdriver => ?_⟩
                have hwire : (d.machine.call c).1.wire = d.machine.wire :=
                  wire_of_refused hc hp
                rw [AwaitsDriver, hstate] at hdriver
                exact hwire ▸ h.wire hdriver
        cases c with
        | pushSerialBytes bytes => exact hm.elim
        | acceptFile => exact hanswer trivial
        | skipFile => exact hanswer trivial
        | confirmFileWrite writtenBytes => exact hanswer trivial
        | onTimeout => exact onTimeout_spec hr
        | cancel =>
            have hstuck := stuck_cancel hr
            exact ⟨hstuck.incomplete, fun hdriver => absurd hdriver hstuck.driver⟩
      exact ⟨hcall.2, hcall.1.not_finishes d.taken⟩

theorem stalled_after {d : Driven Receiver ReceiverAction} {moves : List (Move ReceiverCall)}
    (h : Stalled d) (hmoves : ∀ m ∈ moves, Quiet m) : Stalled (actor.after d moves) := by
  induction moves generalizing d with
  | nil => exact h
  | cons m moves ih =>
      exact ih (stalled_step h (hmoves m (by simp))) fun m' hm' => hmoves m' (by simp [hm'])

/-- What is true of two runs of which the second has the bytes `u` behind its buffer: both wait for
the driver, the first completes no batch without more bytes, or both have completed it and the
second has handed over `u` too. -/
inductive Tracks (u : List UInt8) (d e : Driven Receiver ReceiverAction) : Prop where
  | awaits (w : WireDecoder) (he : e = ⟨d.machine.withWire w, d.taken⟩)
      (hlonger : Longer u d.machine.wire w) (hdriver : d.machine.AwaitsDriver)
  | stalled (h : Stalled d)
  | finished (bytes : List UInt8) (hd : Finishes d bytes) (he : Finishes e (bytes ++ u))

theorem tracks_pump (hu : u.head? ≠ some xon) (hr : r.state ≠ .terminal) (hw : Longer u r.wire w)
    (taken : List ReceiverAction) :
    Tracks u ⟨r.pump, taken⟩ ⟨(r.withWire w).pump, taken⟩ := by
  rcases pump_longer hu hr hw with ⟨w', heq, hw', hdriver⟩ | hstuck | ⟨bytes, hd, he⟩
  · exact .awaits w' (by rw [heq]) hw' hdriver
  · exact .stalled (hstuck.stalled taken)
  · exact .finished bytes (hd.finishes taken) (he.finishes taken)

theorem tracks_step (hu : u.head? ≠ some xon) {d e : Driven Receiver ReceiverAction}
    {m : Move ReceiverCall} (h : Tracks u d e) (hm : Quiet m) :
    Tracks u (actor.step d m) (actor.step e m) := by
  have hterminal : ∀ {d : Driven Receiver ReceiverAction} {bytes : List UInt8},
      Finishes d bytes → Finishes (actor.step d m) bytes := by
    rintro d bytes ⟨hstate, summary, hlast⟩
    cases m with
    | take => exact ⟨hstate, summary, by rw [actor.log_take]; exact hlast⟩
    | call c =>
        have hsame : actor.step d (.call c) = d := by
          have := call_of_terminal hstate c
          simp only [Actor.step, actor, this]
        rw [hsame]
        exact ⟨hstate, summary, hlast⟩
  cases h with
  | stalled h => exact .stalled (stalled_step h hm)
  | finished bytes hd he => exact .finished bytes (hterminal hd) (hterminal he)
  | awaits w he hlonger hdriver =>
      subst he
      cases m with
      | take => exact .awaits w rfl hlonger hdriver
      | call c =>
          have hanswer : Answers c → Tracks u (actor.step d (.call c))
              (actor.step ⟨d.machine.withWire w, d.taken⟩ (.call c)) := by
            intro hc
            change Tracks u ⟨(d.machine.call c).1, d.taken⟩
              ⟨((d.machine.withWire w).call c).1, d.taken⟩
            cases hp : d.machine.pumped c with
            | some v =>
                have hp' := pumped_withWire hc (r := d.machine) w
                rw [hp] at hp'
                rw [call_of_pumped hp, call_of_pumped hp']
                have hwire : v.wire = d.machine.wire := wire_of_pumped hc hp
                exact tracks_pump hu (awaited_of_pumped hc hp).1 (hwire ▸ hlonger) d.taken
            | none =>
                obtain ⟨hspec, hwith⟩ := refused_answer hc hp
                rw [hwith w]
                rcases hspec with hstuck | hstate
                · exact .stalled (hstuck.stalled d.taken)
                · have hwire : (d.machine.call c).1.wire = d.machine.wire :=
                    wire_of_refused hc hp
                  refine .awaits w rfl (hwire ▸ hlonger) ?_
                  rw [AwaitsDriver, hstate]
                  exact hdriver
          cases c with
          | pushSerialBytes bytes => exact hm.elim
          | acceptFile => exact hanswer trivial
          | skipFile => exact hanswer trivial
          | confirmFileWrite writtenBytes => exact hanswer trivial
          | onTimeout =>
              obtain ⟨hincomplete, hdry⟩ := onTimeout_spec hdriver.not_terminal
              exact .stalled ⟨hdry, hincomplete.not_finishes d.taken⟩
          | cancel => exact .stalled ((stuck_cancel hdriver.not_terminal).stalled d.taken)

theorem tracks_after (hu : u.head? ≠ some xon) {d e : Driven Receiver ReceiverAction}
    {moves : List (Move ReceiverCall)} (h : Tracks u d e) (hmoves : ∀ m ∈ moves, Quiet m) :
    Tracks u (actor.after d moves) (actor.after e moves) := by
  induction moves generalizing d e with
  | nil => exact h
  | cons m moves ih =>
      exact ih (tracks_step hu h (hmoves m (by simp))) fun m' hm' => hmoves m' (by simp [hm'])

/-- **The receiver hands over what follows its marker** unless a flow-control byte is among it or
it cancels the transfer. -/
theorem remainder_iff {d : Driven Receiver ReceiverAction} {p t : List UInt8}
    {moves : List (Move ReceiverCall)} (hmoves : ∀ m ∈ moves, Quiet m)
    (haccepted : (d.machine.pushSerialBytes (p ++ t)).2 = .ok ())
    (hdone : Finishes (actor.after d (.call (.pushSerialBytes p) :: moves)) []) :
    Finishes (actor.after d (.call (.pushSerialBytes (p ++ t)) :: moves)) t ↔
      (∀ b ∈ t, isFlowControl b = false) ∧
        (d.machine.wire.push (p ++ t)).1.cancelled = false := by
  change Finishes (actor.after ⟨(d.machine.pushSerialBytes p).1, d.taken⟩ moves) [] at hdone
  change Finishes (actor.after ⟨(d.machine.pushSerialBytes (p ++ t)).1, d.taken⟩ moves) t ↔ _
  unfold pushSerialBytes at haccepted hdone ⊢
  split_ifs at haccepted hdone ⊢ with hterminal
  have hr : d.machine.state ≠ .terminal := fun h => hterminal (isTerminal_iff.mpr h)
  rcases hpush : d.machine.wire.push (p ++ t) with ⟨w, e | _⟩
  · rw [hpush] at haccepted
    cases haccepted
  obtain ⟨d', hd, hinput⟩ := WireDecoder.push_longer hpush
  rw [hd] at hdone
  simp only at hdone ⊢
  by_cases hcancelled : w.cancelled = true
  · have hpump := pump_dry (r := d.machine.withWire w) (incomplete_of_state hr) (.inl hcancelled)
    have hstalled : Stalled ⟨(d.machine.withWire w).pump, d.taken⟩ :=
      ⟨hpump.2, hpump.1.not_finishes d.taken⟩
    have hnever := (stalled_after hstalled hmoves).unfinished t
    simp only [hcancelled, Bool.true_eq_false, and_false, iff_false]
    exact hnever
  · rw [Bool.not_eq_true] at hcancelled
    have htracks := tracks_after (head_buffered t) (tracks_pump (r := d.machine.withWire d')
      (head_buffered t) hr ⟨hinput, hcancelled⟩ d.taken) hmoves
    cases htracks with
    | awaits _ _ _ hdriver => exact absurd hdone.1 hdriver.not_terminal
    | stalled h => exact absurd hdone (h.unfinished [])
    | finished bytes hbytes hlonger =>
        obtain rfl := hbytes.unique hdone
        rw [List.nil_append] at hlonger
        rw [← buffered_eq_self_iff]
        refine ⟨fun h => ⟨hlonger.unique h, hcancelled⟩, fun h => ?_⟩
        rw [h.1] at hlonger
        exact hlonger

end Receiver

end Netcatty.Serial.Zmodem
