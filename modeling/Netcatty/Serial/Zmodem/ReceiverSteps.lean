import Netcatty.Library.Driver
import Netcatty.Serial.Zmodem.Receiver

/-! # What the receiver's functions do

With room in the queue a function that queues one action appends it and moves to its state.  Every
round of the pump that asks for another one has shortened the buffer, so the pump never lacks fuel
(`pump_next`). -/

namespace Netcatty.Serial.Zmodem

inductive ReceiverCall where
  | pushSerialBytes (bytes : List UInt8)
  | acceptFile
  | skipFile
  | confirmFileWrite (writtenBytes : ℕ)
  | onTimeout
  | cancel

namespace Receiver

open Netcatty.Driver Netcatty.Loop

/-! ### The queue -/

section Frame

variable (r : Receiver) (a : ReceiverAction) (st : ReceiverState) (e : Error)

@[simp] theorem queue_config : (r.queue a).config = r.config := by
  unfold queue queueReceiverAction; split_ifs <;> rfl

@[simp] theorem queue_wire : (r.queue a).wire = r.wire := by
  unfold queue queueReceiverAction; split_ifs <;> rfl

@[simp] theorem queue_current : (r.queue a).current = r.current := by
  unfold queue queueReceiverAction; split_ifs <;> rfl

@[simp] theorem queue_fileIndex : (r.queue a).fileIndex = r.fileIndex := by
  unfold queue queueReceiverAction; split_ifs <;> rfl

@[simp] theorem queue_written : (r.queue a).written = r.written := by
  unfold queue queueReceiverAction; split_ifs <;> rfl

@[simp] theorem setState_config : (r.setState st).config = r.config := rfl
@[simp] theorem setState_wire : (r.setState st).wire = r.wire := rfl
@[simp] theorem setState_state : (r.setState st).state = st := rfl
@[simp] theorem setState_actions : (r.setState st).actions = r.actions := rfl
@[simp] theorem setState_current : (r.setState st).current = r.current := rfl
@[simp] theorem setState_fileIndex : (r.setState st).fileIndex = r.fileIndex := rfl
@[simp] theorem setState_written : (r.setState st).written = r.written := rfl

@[simp] theorem fail_config : (r.fail e).config = r.config := by simp [fail]
@[simp] theorem fail_wire : (r.fail e).wire = r.wire := by simp [fail]
@[simp] theorem fail_state : (r.fail e).state = .terminal := rfl
@[simp] theorem fail_fileIndex : (r.fail e).fileIndex = r.fileIndex := by simp [fail]

end Frame

variable {r : Receiver}

theorem isTerminal_iff : r.isTerminal = true ↔ r.state = .terminal := by
  simp [isTerminal]

/-- The queue has room for `n` more actions. -/
def Room (r : Receiver) (n : ℕ) : Prop := r.actions.length + n ≤ maxPendingActions

theorem Room.mono {n m : ℕ} (h : r.Room n) (hm : m ≤ n) : r.Room m := by
  unfold Room at *
  omega

/-- The receiver with more actions in its queue. -/
def append (r : Receiver) (actions : List ReceiverAction) : Receiver :=
  { r with actions := r.actions ++ actions }

section Append

variable (as bs : List ReceiverAction)

@[simp] theorem append_config : (r.append as).config = r.config := rfl
@[simp] theorem append_wire : (r.append as).wire = r.wire := rfl
@[simp] theorem append_state : (r.append as).state = r.state := rfl
@[simp] theorem append_actions : (r.append as).actions = r.actions ++ as := rfl
@[simp] theorem append_current : (r.append as).current = r.current := rfl
@[simp] theorem append_fileIndex : (r.append as).fileIndex = r.fileIndex := rfl
@[simp] theorem append_written : (r.append as).written = r.written := rfl

@[simp] theorem append_append : (r.append as).append bs = r.append (as ++ bs) := by
  simp [append]

@[simp] theorem room_append {n : ℕ} : (r.append as).Room n ↔ r.Room (as.length + n) := by
  simp only [Room, append_actions, List.length_append, Nat.add_assoc]

@[simp] theorem room_setState {n : ℕ} {st : ReceiverState} :
    (r.setState st).Room n ↔ r.Room n :=
  Iff.rfl

end Append

theorem queueReceiverAction_of_room (h : r.Room 1) (a : ReceiverAction) :
    r.queueReceiverAction a = (r.append [a], true) := by
  unfold Room at h
  rw [queueReceiverAction, if_neg (by omega)]
  rfl

theorem queue_of_room (h : r.Room 1) (a : ReceiverAction) : r.queue a = r.append [a] := by
  rw [queue, queueReceiverAction_of_room h]

theorem queue_of_full (h : ¬ r.Room 1) (a : ReceiverAction) :
    r.queue a = { r with
      actions := [.failed (.actionQueueFull maxPendingActions)]
      state := .terminal } := by
  unfold Room at h
  rw [queue, queueReceiverAction, if_pos (by omega)]

theorem room_one_of_running (h : r.running = true) : r.Room 1 := by
  simp only [running, Bool.and_eq_true, decide_eq_true_eq] at h
  unfold Room
  omega

theorem not_terminal_of_running (h : r.running = true) : r.state ≠ .terminal := by
  intro ht
  simp [running, isTerminal, ht] at h

/-! ### The offer and the end of a file -/

def noteOffer (r : Receiver) (metadata : FileMetadata) : Receiver :=
  { r with
    advertisedTotalBytes := saturatingAdd r.advertisedTotalBytes metadata.totalBytes
    current := some metadata }

def countCompleted (r : Receiver) : Receiver :=
  { r with
    current := none
    completedFiles := r.completedFiles + 1
    transferredBytes := saturatingAdd r.transferredBytes r.written }

/-- The receiver before the next file. -/
def advance (r : Receiver) : Receiver := { r with fileIndex := r.fileIndex + 1, written := 0 }

/-- What the end of a file reports. -/
def completeProgress (r : Receiver) (metadata : FileMetadata) : ReceiverAction :=
  .progress {
    fileIndex := r.fileIndex
    fileCount := r.currentFileCountHintFrom metadata
    transferredBytes := r.written
    totalBytes := metadata.totalBytes
    stage := .complete }

/-- The file is done where the header names the offset that has been written, and that is its
size. -/
def Matches (r : Receiver) (metadata : FileMetadata) (offset : ℕ) : Prop :=
  offset = r.written ∧ r.written = metadata.totalBytes

theorem handleEndOfFile_of_matches {metadata : FileMetadata} {offset : ℕ}
    (hc : r.current = some metadata) (h : r.Matches metadata offset) :
    r.handleEndOfFile offset =
      (((r.countCompleted.queue (r.completeProgress metadata)).queue
        (.fileCompleted ⟨r.fileIndex, metadata.totalBytes, r.written⟩)).advance).sendReceiverInit
          1 := by
  obtain ⟨rfl, hw⟩ := h
  unfold handleEndOfFile
  simp only [hc]
  rw [if_neg (by simp [hw])]
  simp only [advance, queue_fileIndex, queue_written]
  rfl

theorem handleEndOfFile_of_not_matches {metadata : FileMetadata} {offset : ℕ}
    (hc : r.current = some metadata) (h : ¬ r.Matches metadata offset) :
    r.handleEndOfFile offset = r.retryReceiverPosition 1 := by
  unfold Matches at h
  unfold handleEndOfFile
  simp only [hc]
  rw [if_pos (by tauto)]

/-! ### The decisions of the driver -/

/-- What the acceptance of a file queues. -/
def beginActions (r : Receiver) (metadata : FileMetadata) : List ReceiverAction :=
  [.beginFile r.fileIndex metadata,
    .progress {
      fileIndex := r.fileIndex
      fileCount := metadata.filesRemaining.getD 0
      transferredBytes := 0
      totalBytes := metadata.totalBytes
      stage := .header },
    .write (encodeHexHeader (.withOffset .receiverPosition 0))]

/-- The receiver at the start of a file. -/
def rewind (r : Receiver) : Receiver := { r with written := 0 }

theorem beginFile_of_room {metadata : FileMetadata} (h : r.Room 3) :
    r.beginFile metadata =
      (r.rewind.append (r.beginActions metadata)).setState (.awaitDataHeader 1) := by
  have h₁ : r.rewind.Room 1 := h.mono (by omega)
  have h₂ : ∀ a, (r.rewind.append [a]).Room 1 := fun a =>
    (room_append _).mpr (h.mono (show 2 ≤ 3 by omega))
  have h₃ : ∀ a b, (r.rewind.append [a, b]).Room 1 := fun a b => (room_append _).mpr h
  have hbegin : r.beginFile metadata = ((r.rewind.queue (.beginFile r.fileIndex metadata)).queue
      (.progress {
        fileIndex := r.fileIndex
        fileCount := metadata.filesRemaining.getD 0
        transferredBytes := 0
        totalBytes := metadata.totalBytes
        stage := .header })).sendReceiverPosition 1 := by
    unfold beginFile
    simp only [queue_fileIndex]
    rfl
  rw [hbegin, queue_of_room h₁, queue_of_room (h₂ _), append_append, sendReceiverPosition,
    if_neg (by simp [rewind])]
  simp only [List.cons_append, List.nil_append]
  rw [queue_of_room (h₃ _ _), append_append]
  rfl

/-- The receiver past the file it does not take. -/
def passOver (r : Receiver) : Receiver :=
  { r with
    current := none
    skippedFiles := r.skippedFiles + 1
    fileIndex := r.fileIndex + 1 }

def receiverInit : Header :=
  ⟨.receiverInit, 0, 0, 0, zrinitCanfdx ||| zrinitCanovio ||| zrinitCanfc32 ||| zrinitEscctl⟩

theorem sendReceiverInit_of_room (h : r.Room 1) (attempts : ℕ) :
    r.sendReceiverInit attempts =
      (r.append [.write (encodeHexHeader receiverInit)]).setState (.awaitHeader attempts) := by
  rw [sendReceiverInit, queue_of_room h]
  rfl

theorem dropFile_of_room (h : r.Room 2) :
    r.dropFile = (r.passOver.append [.write (encodeHexHeader ⟨.skip, 0, 0, 0, 0⟩),
      .write (encodeHexHeader receiverInit)]).setState (.awaitHeader 1) := by
  have h₂ : ∀ a, (r.passOver.append [a]).Room 1 := fun a => (room_append _).mpr h
  have hdrop : r.dropFile = (r.passOver.append
      [.write (encodeHexHeader ⟨.skip, 0, 0, 0, 0⟩)]).sendReceiverInit 1 := by
    unfold dropFile
    rw [queue_of_room (h.mono (by omega))]
    rfl
  rw [hdrop, sendReceiverInit_of_room (h₂ _), append_append]
  rfl

/-- What the confirmation of a write queues. -/
def reportActions (r : Receiver) (metadata : FileMetadata) (frameEnd : FrameEnd) :
    List ReceiverAction :=
  .progress {
    fileIndex := r.fileIndex
    fileCount := r.currentFileCountHint
    transferredBytes := r.written
    totalBytes := metadata.totalBytes
    stage := if frameEnd.endsFrame then .finalizing else .data } ::
    if frameEnd.expectsAck then
      [.write (encodeHexHeader (.withOffset .ack (min r.written maxFileBytes)))]
    else []

theorem reportWrite_of_room {metadata : FileMetadata} {frameEnd : FrameEnd} {checksum : Checksum}
    {attempts : ℕ} (h : r.Room (if frameEnd.expectsAck then 2 else 1)) :
    r.reportWrite metadata frameEnd checksum attempts =
      (r.append (r.reportActions metadata frameEnd)).setState
        (if frameEnd.endsFrame then .awaitEndOfFile attempts else .awaitData checksum attempts) := by
  unfold reportWrite reportActions
  simp only
  rw [queue_of_room (h.mono (by split <;> omega))]
  split
  · rename_i hack
    simp only [if_pos hack] at h
    rw [queue_of_room ((room_append _).mpr h), append_append]
    rfl
  · rfl

/-! ### The loop over the rounds -/

/-- `u` has the configuration of `r`, and no more input. -/
structure Keeps (r u : Receiver) : Prop where
  config : u.config = r.config
  input : u.wire.input.length ≤ r.wire.input.length

namespace Keeps

variable {u v : Receiver}

theorem refl (r : Receiver) : Keeps r r := ⟨rfl, le_rfl⟩

theorem trans (h : Keeps r u) (h' : Keeps u v) : Keeps r v :=
  ⟨h'.config.trans h.config, h'.input.trans h.input⟩

theorem queue (h : Keeps r u) (a : ReceiverAction) : Keeps r (u.queue a) :=
  h.trans ⟨by simp, by simp⟩

theorem setState (h : Keeps r u) (st : ReceiverState) : Keeps r (u.setState st) :=
  h.trans ⟨rfl, le_rfl⟩

theorem fail (h : Keeps r u) (e : Error) : Keeps r (u.fail e) := (h.queue _).setState _

theorem advance (h : Keeps r u) : Keeps r u.advance := h.trans ⟨rfl, le_rfl⟩

theorem noteOffer (h : Keeps r u) {metadata : FileMetadata} : Keeps r (u.noteOffer metadata) :=
  h.trans ⟨rfl, le_rfl⟩

theorem sendReceiverInit (h : Keeps r u) (attempts : ℕ) :
    Keeps r (u.sendReceiverInit attempts) :=
  (h.queue _).setState _

theorem sendFinish (h : Keeps r u) (attempts : ℕ) : Keeps r (u.sendFinish attempts) :=
  (h.queue _).setState _

theorem sendReceiverPosition (h : Keeps r u) (attempts : ℕ) :
    Keeps r (u.sendReceiverPosition attempts) := by
  unfold Receiver.sendReceiverPosition
  split_ifs
  · exact h.fail _
  · exact (h.queue _).setState _

theorem retry {send : Receiver → ℕ → Receiver} (h : Keeps r u) (hsend : ∀ n, Keeps r (send u n))
    (error : Error) (attempts : ℕ) : Keeps r (Receiver.retry error send u attempts) := by
  unfold Receiver.retry
  split_ifs
  · exact h.fail _
  · exact hsend _

theorem handleEndOfFile (h : Keeps r u) (offset : ℕ) : Keeps r (u.handleEndOfFile offset) := by
  cases hc : u.current with
  | none =>
      unfold Receiver.handleEndOfFile
      simp only [hc]
      exact h.fail _
  | some metadata =>
      by_cases hm : u.Matches metadata offset
      · have hcount : Keeps r u.countCompleted := h.trans ⟨rfl, le_rfl⟩
        rw [handleEndOfFile_of_matches hc hm]
        exact ((hcount.queue _).queue _).advance.sendReceiverInit _
      · rw [handleEndOfFile_of_not_matches hc hm]
        exact h.retry h.sendReceiverPosition _ _

theorem handleReceiverHeader (h : Keeps r u) (decoded : DecodedHeader) :
    Keeps r (u.handleReceiverHeader decoded) := by
  unfold Receiver.handleReceiverHeader
  simp only
  split
  · exact h.fail _
  split
  · split
    · exact h.sendReceiverInit _
    · exact h.setState _
    · exact h.setState _
    · exact h.sendFinish _
    · exact h.queue _
    · exact h.setState _
  · split
    · split
      · exact h.setState _
      · exact h.retry h.sendReceiverPosition _ _
    · exact h.handleEndOfFile _
    · exact h.setState _
  · split
    · exact h.handleEndOfFile _
    · split
      · exact h.setState _
      · exact h.setState _
    · exact h.setState _
  · exact h.fail _

theorem handleReceiverSubpacket (h : Keeps r u) (packet : Subpacket) (checksum : Checksum) :
    Keeps r (u.handleReceiverSubpacket packet checksum) := by
  unfold Receiver.handleReceiverSubpacket
  split
  · refine Keeps.setState ?_ _
    split
    · exact h.queue _
    · exact h
  · split
    · exact h.fail _
    · split
      · exact h.fail _
      · split
        · exact h.fail _
        · exact (h.noteOffer.queue _).setState _
  · split
    · exact h.fail _
    · split
      · exact h.fail _
      · exact (h.queue _).setState _
  · exact h.fail _

end Keeps

theorem pumpRound_shortens {u : Receiver} (h : r.pumpRound = (u, true)) :
    u.wire.input.length < r.wire.input.length := by
  have hheader : r.pumpHeader = (u, true) → u.wire.input.length < r.wire.input.length := by
    intro h
    unfold pumpHeader at h
    split at h
    · rename_i wire decoded hn
      obtain ⟨rfl, -⟩ := Prod.mk.inj h
      exact ((Keeps.refl { r with wire }).handleReceiverHeader decoded).input.trans_lt
        (WireDecoder.nextHeader_shortens hn)
    all_goals cases h
  have hsubpacket : ∀ checksum, r.pumpSubpacket checksum = (u, true) →
      u.wire.input.length < r.wire.input.length := by
    intro checksum h
    unfold pumpSubpacket at h
    split at h
    · rename_i wire packet hn
      obtain ⟨rfl, -⟩ := Prod.mk.inj h
      exact ((Keeps.refl { r with wire }).handleReceiverSubpacket packet checksum).input.trans_lt
        (WireDecoder.nextSubpacket_shortens hn)
    all_goals cases h
  have hover : r.pumpOverAndOut = (u, true) → u.wire.input.length < r.wire.input.length := by
    intro h
    unfold pumpOverAndOut at h
    split at h
    · rename_i wire hn
      obtain ⟨rfl, -⟩ := Prod.mk.inj h
      have hpos := WireDecoder.nextOverAndOut_shortens hn
      have hwire : (completeBatch { r with wire }).wire = {} := by
        simp [completeBatch, WireDecoder.takeSuccessRemainder]
      rw [hwire]
      exact Nat.zero_lt_of_lt hpos
    all_goals cases h
  unfold pumpRound at h
  split at h
  · exact hheader h
  · exact hheader h
  · exact hheader h
  · exact hsubpacket _ h
  · exact hsubpacket _ h
  · exact hsubpacket _ h
  · exact hover h
  all_goals cases h

/-- **The pump takes all it can**: its fuel never runs out. -/
theorem pump_next {u : Receiver} (h : r.running = true) (hr : r.pumpRound = (u, true)) :
    r.pump = u.pump :=
  loop_next (fun _ _ _ hr => pumpRound_shortens hr) h hr

theorem pump_last {u : Receiver} (h : r.running = true) (hr : r.pumpRound = (u, false)) :
    r.pump = u :=
  loop_done h hr

theorem pump_stop (h : r.running = false) : r.pump = r :=
  loop_of_stop h

/-! ### Calls -/

def call (r : Receiver) : ReceiverCall → Receiver × Except Error Unit
  | .pushSerialBytes bytes => r.pushSerialBytes bytes
  | .acceptFile => r.acceptFile
  | .skipFile => r.skipFile
  | .confirmFileWrite writtenBytes => r.confirmFileWrite writtenBytes
  | .onTimeout => r.onTimeout
  | .cancel => r.cancel

def actor : Actor Receiver ReceiverCall ReceiverAction Error where
  call := call
  actions := actions
  pop r := r.nextAction.1
  actions_pop _ := rfl

/-- The receiver whose pump a call runs, where it runs one. -/
def pumped (r : Receiver) : ReceiverCall → Option Receiver
  | .pushSerialBytes bytes =>
    if r.isTerminal then none
    else
      match r.wire.push bytes with
      | (wire, .ok ()) => some { r with wire }
      | (_, .error _) => none
  | .acceptFile =>
    match r.state, r.current with
    | .awaitAcceptance, some metadata => some (r.beginFile metadata)
    | _, _ => none
  | .skipFile =>
    match r.state with
    | .awaitAcceptance => some r.dropFile
    | _ => none
  | .confirmFileWrite writtenBytes =>
    match r.state, r.current with
    | .awaitSink exactBytes frameEnd checksum attempts, some metadata =>
      if writtenBytes = exactBytes ∧ r.written + writtenBytes ≤ metadata.totalBytes then
        some ({ r with written := r.written + writtenBytes }.reportWrite metadata frameEnd checksum
          attempts)
      else none
    | _, _ => none
  | .onTimeout | .cancel => none

/-- The states in which the rounds of a call start. -/
def rounds (r : Receiver) (c : ReceiverCall) : List Receiver :=
  match r.pumped c with
  | some u => trips running pumpRound (u.wire.input.length + 1) u
  | none => []

/-- A call that runs the pump ends with it. -/
theorem call_of_pumped {c : ReceiverCall} {u : Receiver} (h : r.pumped c = some u) :
    r.call c = (u.pump, .ok ()) := by
  cases c with
  | pushSerialBytes bytes =>
      unfold pumped at h
      simp only at h
      split_ifs at h with ht
      split at h
      · rename_i wire hp
        obtain rfl := Option.some.inj h
        simp [call, pushSerialBytes, ht, hp]
      · cases h
  | acceptFile =>
      unfold pumped at h
      simp only at h
      split at h
      · rename_i metadata hs hc
        obtain rfl := Option.some.inj h
        simp [call, acceptFile, hs, hc]
      · cases h
  | skipFile =>
      unfold pumped at h
      simp only at h
      split at h
      · rename_i hs
        obtain rfl := Option.some.inj h
        simp [call, skipFile, hs]
      · cases h
  | confirmFileWrite writtenBytes =>
      unfold pumped at h
      simp only at h
      split at h
      · rename_i exactBytes frameEnd checksum attempts metadata hs hc
        split_ifs at h with hw
        obtain ⟨rfl, hle⟩ := hw
        obtain rfl := Option.some.inj h
        simp [call, confirmFileWrite, hs, hc, Nat.not_lt.mpr hle]
      · cases h
  | onTimeout => cases h
  | cancel => cases h

/-- A refused acceptance changes nothing. -/
theorem acceptFile_of_not_pumped (h : r.pumped .acceptFile = none) :
    r.acceptFile = (r, .error .invalidState) := by
  unfold pumped at h
  unfold acceptFile
  cases hr : r.state <;> cases hc : r.current <;> simp_all

theorem skipFile_of_not_pumped (h : r.pumped .skipFile = none) :
    r.skipFile = (r, .error .invalidState) := by
  unfold pumped at h
  unfold skipFile
  cases hr : r.state <;> simp_all

theorem pushSerialBytes_of_not_pumped {bytes : List UInt8}
    (h : r.pumped (.pushSerialBytes bytes) = none) :
    ∃ e, r.pushSerialBytes bytes = (r, .error e) := by
  unfold pumped at h
  unfold pushSerialBytes
  simp only at h
  split_ifs at h ⊢ with ht
  · exact ⟨_, rfl⟩
  · cases hp : r.wire.push bytes with
    | mk wire result =>
        cases result with
        | ok u =>
            rw [hp] at h
            cases h
        | error e =>
            have hwire : wire = r.wire := by
              unfold WireDecoder.push at hp
              split_ifs at hp
              · exact (Prod.mk.inj hp).1.symm
              · cases (Prod.mk.inj hp).2
            rw [hwire]
            exact ⟨e, rfl⟩

/-- A confirmation without a pump is refused, or fails, or the write due is not of the current
file. -/
theorem confirmFileWrite_of_not_pumped {writtenBytes : ℕ}
    (h : r.pumped (.confirmFileWrite writtenBytes) = none) :
    (∃ e, r.confirmFileWrite writtenBytes = (r, .error e)) ∨
      (∃ e, r.confirmFileWrite writtenBytes = (r.fail e, .error e)) ∨
      ∃ frameEnd checksum attempts, r.state = .awaitSink writtenBytes frameEnd checksum attempts ∧
        ((r.current = none ∧ r.confirmFileWrite writtenBytes =
          ({ r with written := r.written + writtenBytes }, .error .invalidState)) ∨
        ∃ metadata e, r.current = some metadata ∧
          r.written + writtenBytes > metadata.totalBytes ∧
          r.confirmFileWrite writtenBytes =
            (fail { r with written := r.written + writtenBytes } e, .ok ())) := by
  unfold pumped at h
  unfold confirmFileWrite
  split
  · rename_i exactBytes frameEnd checksum attempts hr
    by_cases hw : writtenBytes = exactBytes
    · subst hw
      rw [if_neg (by simp)]
      simp only [hr] at h
      refine .inr (.inr ⟨frameEnd, checksum, attempts, hr, ?_⟩)
      cases hc : r.current with
      | none => exact .inl ⟨rfl, rfl⟩
      | some metadata =>
          simp only [hc] at h
          have hgt : r.written + writtenBytes > metadata.totalBytes := by
            by_contra hle
            rw [if_pos ⟨trivial, by omega⟩] at h
            cases h
          exact .inr ⟨metadata, _, rfl, hgt, by simp only [if_pos hgt]; rfl⟩
    · rw [if_pos hw]
      exact .inr (.inl ⟨_, rfl⟩)
  · exact .inl ⟨_, rfl⟩

theorem call_of_terminal (hr : r.state = .terminal) (c : ReceiverCall) : (r.call c).1 = r := by
  have ht : r.isTerminal = true := isTerminal_iff.mpr hr
  cases c with
  | pushSerialBytes bytes => simp [call, pushSerialBytes, ht]
  | acceptFile => simp [call, acceptFile, hr]
  | skipFile => simp [call, skipFile, hr]
  | confirmFileWrite writtenBytes => simp [call, confirmFileWrite, hr]
  | onTimeout => simp [call, onTimeout, ht]
  | cancel => simp [call, cancel, ht]

end Receiver

end Netcatty.Serial.Zmodem
