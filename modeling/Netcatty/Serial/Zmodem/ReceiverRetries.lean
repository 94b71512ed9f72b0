import Netcatty.Serial.Zmodem.ReceiverSteps
import Netcatty.Serial.Zmodem.Written

/-! # What the receiver asks for again

`positions` counts the requests for a position in the receiver's log, and `positionsLeft` is how many
more the attempts in its state allow for the current file.  No call but the acceptance of a file adds
to their sum (`Asked.call`), unless the end of the file is announced at a wrong offset: the
attempts made so far are lost then (`Receiver.Steady`). -/

namespace Netcatty.Serial.Zmodem

open Netcatty.Driver Netcatty.Loop Netcatty.Runs

def ReceiverAction.isPosition : ReceiverAction → Bool
  | .write bytes => writtenType bytes == some .receiverPosition
  | _ => false

/-- How many requests for a position the actions write. -/
def positions (actions : List ReceiverAction) : ℕ := actions.countP (·.isPosition)

theorem positions_append (as bs : List ReceiverAction) :
    positions (as ++ bs) = positions as + positions bs := List.countP_append

namespace Receiver

variable {r u : Receiver} {n m limit spent bound : ℕ}

/-! ### Requests -/

/-- From `r` to `u` at most `n` requests for a position are queued. -/
structure Asks (r : Receiver) (n : ℕ) (u : Receiver) : Prop where
  config : u.config = r.config
  count : positions u.actions ≤ positions r.actions + n

theorem Asks.refl (r : Receiver) : Asks r 0 r := ⟨rfl, le_rfl⟩

theorem Asks.same (r u : Receiver) (hconfig : u.config = r.config)
    (hactions : u.actions = r.actions) : Asks r 0 u :=
  ⟨hconfig, by rw [hactions]; exact le_rfl⟩

theorem Asks.setState (h : Asks r n u) (st : ReceiverState) : Asks r n (u.setState st) :=
  ⟨h.config, h.count⟩

theorem Asks.mono (h : Asks r n u) (hle : n ≤ m) : Asks r m u :=
  ⟨h.config, h.count.trans (by omega)⟩

theorem positions_queue_le (r : Receiver) (a : ReceiverAction) :
    positions (r.queue a).actions ≤ positions r.actions + if a.isPosition then 1 else 0 := by
  by_cases hroom : r.Room 1
  · rw [queue_of_room hroom, append_actions, positions_append]
    simp [positions, List.countP_cons]
  · rw [queue_of_full hroom]
    simp [positions, ReceiverAction.isPosition]

theorem Asks.queue (h : Asks r n u) {a : ReceiverAction} (ha : a.isPosition = false) :
    Asks r n (u.queue a) := by
  have hle := positions_queue_le u a
  rw [ha] at hle
  exact ⟨(queue_config _ _).trans h.config, (by simpa using hle : _ ≤ _).trans h.count⟩

theorem Asks.fail (h : Asks r n u) (e : Error) : Asks r n (u.fail e) := (h.queue rfl).setState _

theorem Asks.hexHeader (h : Asks r n u) {header : Header}
    (hf : header.frameType ≠ .receiverPosition) :
    Asks r n (u.queue (.write (encodeHexHeader header))) :=
  h.queue (by simp [ReceiverAction.isPosition, hf])

theorem Asks.position (h : Asks r n u) (header : Header) :
    Asks r (n + 1) (u.queue (.write (encodeHexHeader header))) := by
  have hle := positions_queue_le u (.write (encodeHexHeader header))
  refine ⟨(queue_config _ _).trans h.config, hle.trans ?_⟩
  have := h.count
  split_ifs <;> omega

theorem Asks.sendReceiverInit (h : Asks r n u) (attempts : ℕ) :
    Asks r n (u.sendReceiverInit attempts) :=
  (h.hexHeader (by simp)).setState _

theorem Asks.sendFinish (h : Asks r n u) (attempts : ℕ) : Asks r n (u.sendFinish attempts) :=
  (h.hexHeader (by simp)).setState _

/-! ### The attempts left -/

/-- How many requests for a position a state allows before the next file. -/
def positionsLeft (limit : ℕ) : ReceiverState → ℕ
  | .awaitDataHeader attempts | .awaitData _ attempts | .awaitSink _ _ _ attempts
  | .awaitEndOfFile attempts => limit - attempts
  | _ => 0

/-- The requests made, with those the attempts still allow, are no more than `bound`; `spent` of
them have left the queue. -/
def Asked (limit spent bound : ℕ) (r : Receiver) : Prop :=
  r.config.retryLimit = limit ∧ spent + positions r.actions + positionsLeft limit r.state ≤ bound

theorem Asked.step (h : Asked limit spent bound r) (hasks : Asks r n u)
    (hleft : n + positionsLeft r.config.retryLimit u.state ≤
      positionsLeft r.config.retryLimit r.state) : Asked limit spent bound u := by
  have hcount := hasks.count
  obtain ⟨rfl, hb⟩ := h
  exact ⟨by rw [hasks.config], by omega⟩

/-- Nothing more is asked for in a state that is not about the data of a file. -/
theorem Asked.leave (h : Asked limit spent bound r) (hasks : Asks r 0 u)
    (hleft : positionsLeft r.config.retryLimit u.state = 0) : Asked limit spent bound u :=
  h.step hasks (by omega)

theorem Asked.fail (h : Asked limit spent bound r) (e : Error) : Asked limit spent bound (r.fail e) :=
  h.leave ((Asks.refl r).fail e) rfl

theorem Asked.setState (h : Asked limit spent bound r) {st : ReceiverState}
    (hleft : positionsLeft r.config.retryLimit st ≤ positionsLeft r.config.retryLimit r.state) :
    Asked limit spent bound (r.setState st) :=
  h.step ((Asks.refl r).setState st) (by simpa using hleft)

theorem Asked.queue (h : Asked limit spent bound r) {a : ReceiverAction} (ha : a.isPosition = false) :
    Asked limit spent bound (r.queue a) := by
  by_cases hroom : r.Room 1
  · rw [queue_of_room hroom]
    refine h.step (u := r.append [a]) ⟨rfl, ?_⟩ (Nat.zero_add _).le
    simp [positions, ha]
  · rw [queue_of_full hroom]
    refine h.leave ⟨rfl, ?_⟩ rfl
    simp [positions, ReceiverAction.isPosition]

theorem Asked.retryReceiverInit (h : Asked limit spent bound r) (error : Error) (attempts : ℕ) :
    Asked limit spent bound (retry error Receiver.sendReceiverInit r attempts) := by
  unfold retry
  split_ifs
  · exact h.fail error
  · exact h.leave ((Asks.refl r).sendReceiverInit _) rfl

/-- A request takes an attempt. -/
theorem Asked.retryReceiverPosition (h : Asked limit spent bound r) {attempts : ℕ}
    (hleft : r.config.retryLimit - attempts ≤ positionsLeft r.config.retryLimit r.state) :
    Asked limit spent bound (r.retryReceiverPosition attempts) := by
  unfold Receiver.retryReceiverPosition retry
  split_ifs with hlimit
  · exact h.fail _
  unfold sendReceiverPosition
  split_ifs
  · exact h.fail _
  · refine h.step (((Asks.refl r).position _).setState _) ?_
    rw [setState_state, positionsLeft]
    omega

theorem Asked.recoverCorruptInput (h : Asked limit spent bound r) :
    Asked limit spent bound r.recoverCorruptInput := by
  have hreset : Asked limit spent bound { r with wire := r.wire.reset } := h
  unfold Receiver.recoverCorruptInput
  simp only
  split
  iterate 3
    rename_i hs
    exact hreset.retryReceiverPosition (by rw [hs]; exact le_rfl)
  iterate 3 exact hreset.retryReceiverInit _ _
  exact hreset.fail _

/-! ### Headers and subpackets -/

theorem Asked.handleEndOfFile (h : Asked limit spent bound r) {offset : ℕ}
    (hsteady : ∀ metadata, r.current = some metadata → ¬ r.Matches metadata offset →
      positionsLeft r.config.retryLimit r.state = r.config.retryLimit - 1) :
    Asked limit spent bound (r.handleEndOfFile offset) := by
  cases hc : r.current with
  | none =>
      have hfail : r.handleEndOfFile offset = r.fail .invalidState := by
        simp [Receiver.handleEndOfFile, hc]
      rw [hfail]
      exact h.fail _
  | some metadata =>
      by_cases hm : r.Matches metadata offset
      · rw [handleEndOfFile_of_matches hc hm]
        have hcounted : Asks r 0 r.countCompleted := Asks.same r _ rfl rfl
        have hreport := (hcounted.queue (a := r.completeProgress metadata) rfl).queue
          (a := .fileCompleted ⟨r.fileIndex, metadata.totalBytes, r.written⟩) rfl
        have hadvance : Asks r 0 ((r.countCompleted.queue (r.completeProgress metadata)).queue
            (.fileCompleted ⟨r.fileIndex, metadata.totalBytes, r.written⟩)).advance :=
          ⟨hreport.config, hreport.count⟩
        exact h.leave (hadvance.sendReceiverInit 1) rfl
      · rw [handleEndOfFile_of_not_matches hc hm]
        exact h.retryReceiverPosition (by rw [hsteady metadata hc hm])

/-- The end of a file that does not match what has been written is announced before anything has
been asked for again. -/
def Steady (r : Receiver) (decoded : DecodedHeader) : Prop :=
  decoded.header.frameType = .endOfFile → ∀ metadata, r.current = some metadata →
    ¬ r.Matches metadata decoded.header.offset →
      ∀ attempts, r.state = .awaitDataHeader attempts ∨ r.state = .awaitEndOfFile attempts →
        attempts = 1

theorem Asked.handleReceiverHeader (h : Asked limit spent bound r) {decoded : DecodedHeader}
    (hsteady : r.Steady decoded) : Asked limit spent bound (r.handleReceiverHeader decoded) := by
  unfold Receiver.handleReceiverHeader
  simp only
  split
  · exact h.fail _
  split
  · rename_i attempts hs
    split
    · exact h.leave ((Asks.refl r).sendReceiverInit _) rfl
    · exact h.setState (Nat.zero_le _)
    · exact h.setState (Nat.zero_le _)
    · exact h.leave ((Asks.refl r).sendFinish _) rfl
    · exact h.queue (by simp [ReceiverAction.isPosition])
    · exact h.setState (Nat.zero_le _)
  · rename_i attempts hs
    split
    · split_ifs
      · exact h.setState (by rw [hs]; exact le_rfl)
      · exact h.retryReceiverPosition (by rw [hs]; exact le_rfl)
    · rename_i hf
      refine h.handleEndOfFile fun metadata hc hm => ?_
      rw [hs, hsteady hf metadata hc hm attempts (.inl hs)]
      rfl
    · exact h.setState (by rw [hs])
  · rename_i attempts hs
    split
    · rename_i hf
      refine h.handleEndOfFile fun metadata hc hm => ?_
      rw [hs, hsteady hf metadata hc hm attempts (.inr hs)]
      rfl
    · split_ifs
      · exact h.setState (by rw [hs]; exact le_rfl)
      · exact h.setState (by rw [hs])
    · exact h.setState (by rw [hs])
  · exact h.fail _

theorem Asked.handleReceiverSubpacket (h : Asked limit spent bound r) (packet : Subpacket)
    (checksum : Checksum) : Asked limit spent bound (r.handleReceiverSubpacket packet checksum) := by
  unfold Receiver.handleReceiverSubpacket
  split
  · simp only
    split_ifs
    · exact h.leave (((Asks.refl r).hexHeader (by simp)).setState _) rfl
    · exact h.setState (Nat.zero_le _)
  · split
    · exact h.fail _
    split
    · exact h.fail _
    split_ifs
    · exact h.fail _
    · rename_i metadata _ _
      have hoffer : Asks r 0 ((r.noteOffer metadata).queue (.offerFile r.fileIndex metadata)) :=
        (Asks.same r (r.noteOffer metadata) rfl rfl).queue rfl
      exact h.leave (hoffer.setState .awaitAcceptance) rfl
  · rename_i attempts hs
    split
    · exact h.fail _
    split_ifs
    · exact h.fail _
    · exact h.step (((Asks.refl r).queue rfl).setState _) (by rw [hs]; exact (Nat.zero_add _).le)
  · exact h.fail _

theorem Asked.completeBatch (h : Asked limit spent bound r) : Asked limit spent bound r.completeBatch := by
  have hclose : Asks r 0 { r with wire := {} } := Asks.same r _ rfl rfl
  exact h.leave ((hclose.queue (by rfl)).setState .terminal) rfl

/-! ### Calls -/

/-- The header that the receiver handles next. -/
def nextDecoded (r : Receiver) : Option DecodedHeader :=
  match r.wire.nextHeader with
  | (_, .ok decoded) => decoded
  | _ => none

theorem Asked.pumpRound (h : Asked limit spent bound r)
    (hsteady : ∀ decoded, r.nextDecoded = some decoded → r.Steady decoded) :
    Asked limit spent bound r.pumpRound.1 := by
  have hwire : ∀ wire, Asked limit spent bound { r with wire } := fun _ => h
  have hheader : Asked limit spent bound r.pumpHeader.1 := by
    unfold pumpHeader
    split
    · rename_i wire decoded hn
      exact (hwire wire).handleReceiverHeader (hsteady decoded (by simp [nextDecoded, hn]))
    · exact hwire _
    · exact (hwire _).fail _
    · exact (hwire _).recoverCorruptInput
    · exact (hwire _).recoverCorruptInput
    · exact (hwire _).fail _
  have hsubpacket : ∀ checksum, Asked limit spent bound (r.pumpSubpacket checksum).1 := by
    intro checksum
    unfold pumpSubpacket
    split
    · exact (hwire _).handleReceiverSubpacket _ _
    · exact hwire _
    · exact (hwire _).recoverCorruptInput
    · exact (hwire _).recoverCorruptInput
    · exact (hwire _).fail _
    · exact (hwire _).fail _
  have hend : Asked limit spent bound r.pumpOverAndOut.1 := by
    unfold pumpOverAndOut
    split
    · exact (hwire _).completeBatch
    · exact hwire _
    · exact (hwire _).fail _
  unfold Receiver.pumpRound
  split
  iterate 3 exact hheader
  iterate 3 exact hsubpacket _
  exact hend
  iterate 3 exact h

/-- The headers of a call are handled in a steady receiver. -/
def StaysSteady (r : Receiver) : Move ReceiverCall → Prop
  | .call c => ∀ t ∈ r.rounds c, ∀ decoded, t.nextDecoded = some decoded → t.Steady decoded
  | .take => True

theorem Asked.pump {c : ReceiverCall} (h : Asked limit spent bound u) (hp : r.pumped c = some u)
    (hsteady : r.StaysSteady (.call c)) : Asked limit spent bound (r.call c).1 := by
  rw [call_of_pumped hp]
  unfold StaysSteady rounds at hsteady
  simp only [hp] at hsteady
  exact loop_invariant (fun t ht _ hw => hw.pumpRound (hsteady t ht)) h

theorem Asks.sendReceiverPosition (h : Asks r n u) (attempts : ℕ) :
    Asks r (n + 1) (u.sendReceiverPosition attempts) := by
  unfold Receiver.sendReceiverPosition
  split_ifs
  · exact (h.fail _).mono (Nat.le_succ n)
  · exact (h.position _).setState _

theorem Asked.reportWrite (h : Asked limit spent bound r) {exactBytes attempts : ℕ} {frameEnd : FrameEnd}
    {checksum : Checksum} (hr : r.state = .awaitSink exactBytes frameEnd checksum attempts)
    (metadata : FileMetadata) :
    Asked limit spent bound (r.reportWrite metadata frameEnd checksum attempts) := by
  have hasks : Asks r 0 (r.reportWrite metadata frameEnd checksum attempts) := by
    unfold Receiver.reportWrite
    simp only
    split_ifs
    iterate 2 exact (((Asks.refl r).queue rfl).hexHeader (by simp)).setState _
    iterate 2 exact ((Asks.refl r).queue rfl).setState _
  refine h.step hasks ?_
  rw [hr, Receiver.reportWrite, setState_state]
  split_ifs <;> exact (Nat.zero_add _).le

theorem Asked.confirmFileWrite (h : Asked limit spent bound r) {writtenBytes : ℕ}
    (hsteady : r.StaysSteady (.call (.confirmFileWrite writtenBytes))) :
    Asked limit spent bound (r.call (.confirmFileWrite writtenBytes)).1 := by
  cases hp : r.pumped (.confirmFileWrite writtenBytes) with
  | none =>
      rw [call]
      rcases confirmFileWrite_of_not_pumped hp with ⟨e, he⟩ | ⟨e, he⟩ | ⟨f, c, a, -, hcase⟩
      · rwa [he]
      · rw [he]
        exact h.fail e
      · rcases hcase with ⟨-, he⟩ | ⟨_, e, -, -, he⟩
        · rw [he]
          exact h
        · rw [he]
          exact Asked.fail (r := { r with written := r.written + writtenBytes }) h e
  | some u =>
      have hu : Asked limit spent bound u := by
        unfold pumped at hp
        simp only at hp
        split at hp
        · rename_i hs _
          split_ifs at hp
          obtain rfl := Option.some.inj hp
          exact Asked.reportWrite (r := { r with written := r.written + writtenBytes }) h hs _
        · cases hp
      exact hu.pump hp hsteady

theorem Asked.skipFile (h : Asked limit spent bound r) (hsteady : r.StaysSteady (.call .skipFile)) :
    Asked limit spent bound (r.call .skipFile).1 := by
  cases hp : r.pumped .skipFile with
  | none =>
      rw [call, skipFile_of_not_pumped hp]
      exact h
  | some u =>
      have hu : Asked limit spent bound u := by
        unfold pumped at hp
        simp only at hp
        split at hp
        · obtain rfl := Option.some.inj hp
          have hskip : Asks r 0 (r.queue (.write (encodeHexHeader ⟨.skip, 0, 0, 0, 0⟩))) :=
            (Asks.refl r).hexHeader (by simp)
          have hpass : Asks r 0 { r.queue (.write (encodeHexHeader ⟨.skip, 0, 0, 0, 0⟩)) with
              current := none
              skippedFiles := (r.queue (.write (encodeHexHeader ⟨.skip, 0, 0, 0, 0⟩))).skippedFiles
                + 1
              fileIndex := (r.queue (.write (encodeHexHeader ⟨.skip, 0, 0, 0, 0⟩))).fileIndex + 1 } :=
            ⟨hskip.config, hskip.count⟩
          exact h.leave (hpass.sendReceiverInit 1) rfl
        · cases hp
      exact hu.pump hp hsteady

theorem Asked.onTimeout (h : Asked limit spent bound r) : Asked limit spent bound r.onTimeout.1 := by
  have hreset : Asked limit spent bound { r with wire := r.wire.reset } := h
  unfold Receiver.onTimeout
  split
  · exact h
  simp only
  split
  · exact hreset.retryReceiverInit _ _
  iterate 2
    · split_ifs
      · exact hreset.fail _
      · exact hreset.leave (((Asks.refl _).hexHeader (by simp)).setState _) rfl
  iterate 3
    · rename_i hs
      exact hreset.retryReceiverPosition (by rw [hs]; exact le_rfl)
  · unfold Receiver.retryFinish retry
    simp only
    split_ifs
    · exact hreset.fail _
    · exact hreset.leave ((Asks.refl _).sendFinish _) rfl
  iterate 3 exact hreset

theorem Asked.cancel (h : Asked limit spent bound r) : Asked limit spent bound r.cancel.1 := by
  unfold Receiver.cancel
  split
  · exact h
  · exact (h.queue (by simp [ReceiverAction.isPosition, writtenType_cancelSequence])).fail _

/-- Any call but an acceptance. -/
theorem Asked.call (h : Asked limit spent bound r) {c : ReceiverCall} (hc : c ≠ .acceptFile)
    (hsteady : r.StaysSteady (.call c)) : Asked limit spent bound (r.call c).1 := by
  cases c with
  | pushSerialBytes bytes =>
      cases hp : r.pumped (.pushSerialBytes bytes) with
      | none =>
          obtain ⟨e, he⟩ := pushSerialBytes_of_not_pumped hp
          rwa [Receiver.call, he]
      | some u =>
          have hu : Asked limit spent bound u := by
            unfold pumped at hp
            simp only at hp
            split_ifs at hp
            split at hp
            · obtain rfl := Option.some.inj hp
              exact h
            · cases hp
          exact hu.pump hp hsteady
  | acceptFile => exact absurd rfl hc
  | skipFile => exact h.skipFile hsteady
  | confirmFileWrite writtenBytes => exact h.confirmFileWrite hsteady
  | onTimeout => exact h.onTimeout
  | cancel => exact h.cancel

end Receiver

end Netcatty.Serial.Zmodem
