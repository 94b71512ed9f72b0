import Netcatty.Serial.Zmodem.ReceiverSteps

/-! # The receiver and its full queue

The receiver queues actions as the sender does.  A round of its pump finds room for one action; only
the end of a file queues more (`Receiver.headerDemand`).  Along a run of calls that find room a
failure closes the log (`Receiver.sound_of_hasRoom`). -/

namespace Netcatty.Serial.Zmodem

open Netcatty.Driver Netcatty.Loop Netcatty.Runs

namespace Receiver

/-! ### Room for the receiver's calls

How many actions a function queues before it queues another one or leaves the machine running. -/

instance (r : Receiver) (metadata : FileMetadata) (offset : ℕ) :
    Decidable (r.Matches metadata offset) :=
  inferInstanceAs (Decidable (_ ∧ _))

/-- The end of a file that is done. -/
def endOfFileDemand (r : Receiver) (offset : ℕ) : ℕ :=
  match r.current with
  | some metadata => if r.Matches metadata offset then 3 else 0
  | none => 0

def headerDemand (r : Receiver) (decoded : DecodedHeader) : ℕ :=
  match r.state, decoded.header.frameType with
  | .awaitDataHeader _, .endOfFile | .awaitEndOfFile _, .endOfFile =>
    r.endOfFileDemand decoded.header.offset
  | _, _ => 0

def retryDemand (r : Receiver) (attempts : ℕ) : ℕ :=
  if attempts ≥ r.config.retryLimit then 0 else 1

def callDemand (r : Receiver) : ReceiverCall → ℕ
  | .pushSerialBytes _ => 0
  | .acceptFile => if (r.pumped .acceptFile).isSome then 3 else 0
  | .skipFile => if (r.pumped .skipFile).isSome then 2 else 0
  | .confirmFileWrite writtenBytes =>
    match r.state with
    | .awaitSink _ frameEnd _ _ =>
      if (r.pumped (.confirmFileWrite writtenBytes)).isSome then
        if frameEnd.expectsAck then 2 else 1
      else 0
    | _ => 0
  | .onTimeout =>
    match r.state with
    | .awaitHeader attempts | .awaitSenderInitData _ attempts | .awaitMetadata _ attempts
    | .awaitDataHeader attempts | .awaitData _ attempts | .awaitEndOfFile attempts
    | .awaitOverAndOut attempts => r.retryDemand attempts
    | _ => 0
  | .cancel => if r.isTerminal then 0 else 1

/-- The header that comes next finds room. -/
def RoundHasRoom (r : Receiver) : Prop :=
  ∀ wire decoded, r.wire.nextHeader = (wire, .ok (some decoded)) → r.Room (r.headerDemand decoded)

/-- **No function of the call runs into a full queue unawares.** -/
def HasRoom (r : Receiver) : Move ReceiverCall → Prop
  | .call c => r.Room (r.callDemand c) ∧ ∀ t ∈ r.rounds c, t.RoundHasRoom
  | .take => True

end Receiver

def ReceiverAction.isFailure : ReceiverAction → Bool
  | .failed _ => true
  | _ => false

namespace Receiver

/-! ### The receiver with room -/

/-- The queue is free of failures, or a failure closes it and the receiver is terminal. -/
def Settled (r : Receiver) : Prop :=
  Clean ReceiverAction.isFailure r.actions ∨
    r.state = .terminal ∧ Closed ReceiverAction.isFailure r.actions

variable {r : Receiver}

/-- A settled receiver that still runs has a clean queue. -/
theorem Settled.clean (h : r.Settled) (hr : r.state ≠ .terminal) :
    Clean ReceiverAction.isFailure r.actions :=
  h.resolve_right fun ht => hr ht.1

theorem clean_append {as : List ReceiverAction} (h : Clean ReceiverAction.isFailure r.actions)
    (has : ∀ a ∈ as, a.isFailure = false) : Clean ReceiverAction.isFailure (r.append as).actions :=
  Clean.append.mpr ⟨h, has⟩

theorem settled_fail (h : Clean ReceiverAction.isFailure r.actions) (e : Error) :
    (r.fail e).Settled := by
  right
  refine ⟨rfl, ?_⟩
  by_cases hroom : r.Room 1
  · rw [fail, queue_of_room hroom]
    exact Closed.concat h rfl
  · rw [fail, queue_of_full hroom]
    exact Closed.singleton rfl

theorem settled_queue {a : ReceiverAction} (h : Clean ReceiverAction.isFailure r.actions)
    (ha : a.isFailure = false) : (r.queue a).Settled := by
  by_cases hroom : r.Room 1
  · rw [queue_of_room hroom]
    exact .inl (clean_append h (by simpa using ha))
  · rw [queue_of_full hroom]
    exact .inr ⟨rfl, Closed.singleton rfl⟩

/-- One action with room, and a state. -/
theorem settled_send {a : ReceiverAction} (h : Clean ReceiverAction.isFailure r.actions)
    (hroom : r.Room 1) (ha : a.isFailure = false) (st : ReceiverState) :
    ((r.queue a).setState st).Settled := by
  rw [queue_of_room hroom]
  exact .inl (clean_append h (by simpa using ha))

theorem settled_sendReceiverPosition (h : Clean ReceiverAction.isFailure r.actions)
    (hroom : r.Room 1) (attempts : ℕ) : (r.sendReceiverPosition attempts).Settled := by
  unfold sendReceiverPosition
  split
  · exact settled_fail h _
  · exact settled_send h hroom rfl _

theorem settled_retry {send : Receiver → ℕ → Receiver} {attempts : ℕ} {error : Error}
    (h : Clean ReceiverAction.isFailure r.actions) (hroom : r.Room (r.retryDemand attempts))
    (hsend : r.Room 1 → (send r (attempts + 1)).Settled) :
    (retry error send r attempts).Settled := by
  unfold retryDemand at hroom
  unfold retry
  split_ifs at hroom ⊢
  · exact settled_fail h _
  · exact hsend hroom

theorem room_retryDemand (hroom : r.Room 1) (attempts : ℕ) : r.Room (r.retryDemand attempts) := by
  unfold retryDemand
  split_ifs
  · exact hroom.mono (by omega)
  · exact hroom

theorem settled_retryReceiverPosition (h : Clean ReceiverAction.isFailure r.actions)
    {attempts : ℕ} (hroom : r.Room (r.retryDemand attempts)) :
    (r.retryReceiverPosition attempts).Settled :=
  settled_retry h hroom fun hr => settled_sendReceiverPosition h hr _

theorem settled_recoverCorruptInput (h : Clean ReceiverAction.isFailure r.actions)
    (hroom : r.Room 1) : r.recoverCorruptInput.Settled := by
  unfold recoverCorruptInput
  simp only
  split
  · exact settled_retryReceiverPosition (r := { r with wire := r.wire.reset }) h
      (room_retryDemand hroom _)
  · exact settled_retryReceiverPosition (r := { r with wire := r.wire.reset }) h
      (room_retryDemand hroom _)
  · exact settled_retryReceiverPosition (r := { r with wire := r.wire.reset }) h
      (room_retryDemand hroom _)
  · exact settled_retry (r := { r with wire := r.wire.reset }) h (room_retryDemand hroom _)
      fun hr => settled_send (r := { r with wire := r.wire.reset }) h hr rfl _
  · exact settled_retry (r := { r with wire := r.wire.reset }) h (room_retryDemand hroom _)
      fun hr => settled_send (r := { r with wire := r.wire.reset }) h hr rfl _
  · exact settled_retry (r := { r with wire := r.wire.reset }) h (room_retryDemand hroom _)
      fun hr => settled_send (r := { r with wire := r.wire.reset }) h hr rfl _
  · exact settled_fail (r := { r with wire := r.wire.reset }) h _

theorem settled_handleEndOfFile {offset : ℕ} (h : Clean ReceiverAction.isFailure r.actions)
    (hroom : r.Room 1) (hdemand : r.Room (r.endOfFileDemand offset)) :
    (r.handleEndOfFile offset).Settled := by
  cases hc : r.current with
  | none =>
      unfold handleEndOfFile
      simp only [hc]
      exact settled_fail h _
  | some metadata =>
      by_cases hm : r.Matches metadata offset
      · simp only [endOfFileDemand, hc, if_pos hm] at hdemand
        have h₂ : ∀ a, (r.countCompleted.append [a]).Room 1 := fun a =>
          (room_append _).mpr (hdemand.mono (show 2 ≤ 3 by omega))
        have h₃ : ∀ as, as.length = 2 → (r.countCompleted.append as).advance.Room 1 := by
          intro as has
          refine (room_append (r := r.countCompleted) as).mpr ?_
          rw [has]
          exact hdemand
        rw [handleEndOfFile_of_matches hc hm,
          queue_of_room (r := r.countCompleted) (hdemand.mono (show 1 ≤ 3 by omega)),
          queue_of_room (h₂ _), append_append]
        refine settled_send ?_ (h₃ _ rfl) rfl _
        exact clean_append (r := r.countCompleted) h
          (by simp [completeProgress, ReceiverAction.isFailure])
      · rw [handleEndOfFile_of_not_matches hc hm]
        exact settled_retryReceiverPosition h (room_retryDemand hroom _)

/-- **A header that finds room** leaves the receiver settled. -/
theorem settled_handleReceiverHeader {decoded : DecodedHeader}
    (h : Clean ReceiverAction.isFailure r.actions) (hroom : r.Room 1)
    (hdemand : r.Room (r.headerDemand decoded)) : (r.handleReceiverHeader decoded).Settled := by
  unfold handleReceiverHeader
  simp only
  split
  · exact settled_fail h _
  split
  · split
    · exact settled_send h hroom rfl _
    · exact .inl h
    · exact .inl h
    · exact settled_send h hroom rfl _
    · exact settled_queue h rfl
    · exact .inl h
  · rename_i hr
    split
    · split
      · exact .inl h
      · exact settled_retryReceiverPosition h (room_retryDemand hroom _)
    · rename_i ht
      simp only [headerDemand, hr, ht] at hdemand
      exact settled_handleEndOfFile h hroom hdemand
    · exact .inl h
  · rename_i hr
    split
    · rename_i ht
      simp only [headerDemand, hr, ht] at hdemand
      exact settled_handleEndOfFile h hroom hdemand
    · split
      · exact .inl h
      · exact .inl h
    · exact .inl h
  · exact settled_fail h _

theorem settled_handleReceiverSubpacket {packet : Subpacket} {checksum : Checksum}
    (h : Clean ReceiverAction.isFailure r.actions) (hroom : r.Room 1) :
    (r.handleReceiverSubpacket packet checksum).Settled := by
  unfold handleReceiverSubpacket
  split
  · simp only
    split
    · exact settled_send h hroom rfl _
    · exact .inl h
  · split
    · exact settled_fail h _
    split
    · exact settled_fail h _
    split
    · exact settled_fail h _
    · rename_i metadata _ _
      exact settled_send (r := r.noteOffer metadata) h hroom rfl _
  · split
    · exact settled_fail h _
    split
    · exact settled_fail h _
    · exact settled_send h hroom rfl _
  · exact settled_fail h _

theorem settled_completeBatch (h : Clean ReceiverAction.isFailure r.actions) :
    r.completeBatch.Settled := by
  have hlast := settled_queue (r := { r with wire := {} }) (a := .batchCompleted {
    fileCount := r.fileIndex
    completedFiles := r.completedFiles
    skippedFiles := r.skippedFiles
    totalBytes := r.advertisedTotalBytes
    transferredBytes := r.transferredBytes } r.wire.input) h rfl
  exact hlast.imp id fun hl => ⟨rfl, hl.2⟩

theorem settled_pumpRound (h : Clean ReceiverAction.isFailure r.actions) (hroom : r.Room 1)
    (hround : r.RoundHasRoom) : r.pumpRound.1.Settled := by
  have hheader : r.pumpHeader.1.Settled := by
    unfold pumpHeader
    split
    · rename_i wire decoded hn
      exact settled_handleReceiverHeader (r := { r with wire }) h hroom (hround wire decoded hn)
    · exact .inl h
    · rename_i wire _
      exact settled_fail (r := { r with wire }) h _
    · rename_i wire _
      exact settled_recoverCorruptInput (r := { r with wire }) h hroom
    · rename_i wire _
      exact settled_recoverCorruptInput (r := { r with wire }) h hroom
    · rename_i wire _ _ _ _ _
      exact settled_fail (r := { r with wire }) h _
  have hsubpacket : ∀ checksum, (r.pumpSubpacket checksum).1.Settled := by
    intro checksum
    unfold pumpSubpacket
    split
    · rename_i wire packet _
      exact settled_handleReceiverSubpacket (r := { r with wire }) h hroom
    · exact .inl h
    · rename_i wire _
      exact settled_recoverCorruptInput (r := { r with wire }) h hroom
    · rename_i wire _
      exact settled_recoverCorruptInput (r := { r with wire }) h hroom
    · rename_i wire _
      exact settled_fail (r := { r with wire }) h _
    · rename_i wire _ _ _ _ _
      exact settled_fail (r := { r with wire }) h _
  have hover : r.pumpOverAndOut.1.Settled := by
    unfold pumpOverAndOut
    split
    · rename_i wire _
      exact settled_completeBatch (r := { r with wire }) h
    · exact .inl h
    · rename_i wire _ _
      exact settled_fail (r := { r with wire }) h _
  unfold pumpRound
  split
  · exact hheader
  · exact hheader
  · exact hheader
  · exact hsubpacket _
  · exact hsubpacket _
  · exact hsubpacket _
  · exact hover
  all_goals exact .inl h

theorem settled_pump (h : r.Settled)
    (hrounds : ∀ t ∈ trips running pumpRound (r.wire.input.length + 1) r, t.RoundHasRoom) :
    r.pump.Settled :=
  loop_invariant (I := Settled) (fun t ht hrun hset =>
    settled_pumpRound (hset.clean (not_terminal_of_running hrun)) (room_one_of_running hrun)
      (hrounds t ht)) h

/-! ### The receiver's runs -/

theorem settled_beginFile {metadata : FileMetadata}
    (h : Clean ReceiverAction.isFailure r.actions) (hroom : r.Room 3) :
    (r.beginFile metadata).Settled := by
  rw [beginFile_of_room hroom]
  exact .inl (clean_append (r := r.rewind) h (by simp [beginActions, ReceiverAction.isFailure]))

theorem settled_dropFile (h : Clean ReceiverAction.isFailure r.actions) (hroom : r.Room 2) :
    r.dropFile.Settled := by
  rw [dropFile_of_room hroom]
  exact .inl (clean_append (r := r.passOver) h (by simp [ReceiverAction.isFailure]))

theorem settled_reportWrite {metadata : FileMetadata} {frameEnd : FrameEnd} {checksum : Checksum}
    {attempts : ℕ} (h : Clean ReceiverAction.isFailure r.actions)
    (hroom : r.Room (if frameEnd.expectsAck then 2 else 1)) :
    (r.reportWrite metadata frameEnd checksum attempts).Settled := by
  rw [reportWrite_of_room hroom]
  refine .inl (clean_append h ?_)
  unfold reportActions
  split <;> simp [ReceiverAction.isFailure]

theorem settled_onTimeout (h : Clean ReceiverAction.isFailure r.actions)
    (hroom : r.Room (r.callDemand .onTimeout)) : r.onTimeout.1.Settled := by
  unfold onTimeout
  split
  · exact .inl h
  simp only
  split
  all_goals
    rename_i hr
    simp only [callDemand, hr] at hroom
  · exact settled_retry (r := { r with wire := r.wire.reset }) h hroom fun hr =>
      settled_send (r := { r with wire := r.wire.reset }) h hr rfl _
  · unfold retryDemand at hroom
    split_ifs at hroom ⊢
    · exact settled_fail (r := { r with wire := r.wire.reset }) h _
    · exact settled_send (r := { r with wire := r.wire.reset }) h hroom rfl _
  · unfold retryDemand at hroom
    split_ifs at hroom ⊢
    · exact settled_fail (r := { r with wire := r.wire.reset }) h _
    · exact settled_send (r := { r with wire := r.wire.reset }) h hroom rfl _
  · exact settled_retryReceiverPosition (r := { r with wire := r.wire.reset }) h hroom
  · exact settled_retryReceiverPosition (r := { r with wire := r.wire.reset }) h hroom
  · exact settled_retryReceiverPosition (r := { r with wire := r.wire.reset }) h hroom
  · exact settled_retry (r := { r with wire := r.wire.reset }) h hroom fun hr =>
      settled_send (r := { r with wire := r.wire.reset }) h hr rfl _
  all_goals exact .inl h

theorem settled_cancel (h : Clean ReceiverAction.isFailure r.actions)
    (hroom : r.Room (r.callDemand .cancel)) : r.cancel.1.Settled := by
  simp only [callDemand] at hroom
  unfold cancel
  split_ifs at hroom ⊢
  · exact .inl h
  · rw [queue_of_room hroom]
    exact settled_fail (clean_append h (by simp [ReceiverAction.isFailure])) _

/-- What a call hands to the pump is settled. -/
theorem settled_pumped {c : ReceiverCall} {u : Receiver} (hp : r.pumped c = some u)
    (h : Clean ReceiverAction.isFailure r.actions) (hroom : r.Room (r.callDemand c)) :
    u.Settled := by
  have hsome : (r.pumped c).isSome = true := by simp [hp]
  cases c with
  | pushSerialBytes bytes =>
      simp only [pumped] at hp
      split_ifs at hp
      split at hp
      · obtain rfl := Option.some.inj hp
        exact .inl h
      · cases hp
  | acceptFile =>
      simp only [callDemand, if_pos hsome] at hroom
      simp only [pumped] at hp
      split at hp
      · obtain rfl := Option.some.inj hp
        exact settled_beginFile h hroom
      · cases hp
  | skipFile =>
      simp only [callDemand, if_pos hsome] at hroom
      simp only [pumped] at hp
      split at hp
      · obtain rfl := Option.some.inj hp
        exact settled_dropFile h hroom
      · cases hp
  | confirmFileWrite writtenBytes =>
      simp only [callDemand, if_pos hsome] at hroom
      simp only [pumped] at hp
      split at hp
      · rename_i hr _
        simp only [hr] at hroom
        split_ifs at hp
        obtain rfl := Option.some.inj hp
        exact settled_reportWrite (r := { r with written := r.written + writtenBytes }) h hroom
      · cases hp
  | onTimeout => cases hp
  | cancel => cases hp

theorem settled_call {c : ReceiverCall} (h : Clean ReceiverAction.isFailure r.actions)
    (hroom : r.HasRoom (.call c)) : (r.call c).1.Settled := by
  cases hp : r.pumped c with
  | some u =>
      have hrounds := hroom.2
      unfold rounds at hrounds
      rw [hp] at hrounds
      rw [call_of_pumped hp]
      exact settled_pump (settled_pumped hp h hroom.1) hrounds
  | none =>
      cases c with
      | pushSerialBytes bytes =>
          obtain ⟨e, he⟩ := pushSerialBytes_of_not_pumped hp
          rw [call, he]
          exact .inl h
      | acceptFile =>
          rw [call, acceptFile_of_not_pumped hp]
          exact .inl h
      | skipFile =>
          rw [call, skipFile_of_not_pumped hp]
          exact .inl h
      | confirmFileWrite writtenBytes =>
          rw [call]
          rcases confirmFileWrite_of_not_pumped hp with ⟨e, he⟩ | ⟨e, he⟩ |
            ⟨-, -, -, -, ⟨-, he⟩ | ⟨-, e, -, -, he⟩⟩
          · rw [he]
            exact .inl h
          · rw [he]
            exact settled_fail h e
          · rw [he]
            exact .inl h
          · rw [he]
            exact settled_fail (r := { r with written := r.written + writtenBytes }) h e
      | onTimeout => exact settled_onTimeout h hroom.1
      | cancel => exact settled_cancel h hroom.1

theorem clean_new (config : Config) : Clean ReceiverAction.isFailure (new config).actions := by
  unfold new sendReceiverInit
  simp only
  rw [queue_of_room (by simp [Room, maxPendingActions])]
  simp [append, setState, Clean, ReceiverAction.isFailure]

theorem sound_of_hasRoom {config : Config} {moves : List (Move ReceiverCall)}
    {d : Driven Receiver ReceiverAction} (h : Run (actor.Step HasRoom) ⟨new config, []⟩ moves d) :
    Sound actor ReceiverAction.isFailure (·.state = .terminal) d := by
  have hterminal : ∀ (r : Receiver) c, r.state = .terminal → (actor.call r c).1 = r :=
    fun _ c hr => call_of_terminal hr c
  refine sound_of_run hterminal (fun _ hr => hr) ?_ (.inl ?_) h
  · intro r c _ hroom hclean
    exact settled_call hclean hroom
  · exact clean_new config

end Receiver

end Netcatty.Serial.Zmodem
