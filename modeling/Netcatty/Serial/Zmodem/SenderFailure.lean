import Netcatty.Serial.Zmodem.SenderSteps

/-! # The sender and its full queue

A full queue is replaced by the failure `actionQueueFull`, and the sender becomes terminal; but a
function that queues several actions does not look back, goes on queueing and sets its own state.
`Sender.HasRoom` says of a call that each of its functions finds room for what it queues before it
queues more or leaves the sender running; along a run of such calls a failure closes the log
(`Sender.sound_of_hasRoom`). -/

namespace Netcatty.Serial.Zmodem

open Netcatty.Driver Netcatty.Loop Netcatty.Runs

namespace Sender

/-! ### Room for the sender's calls

How many actions a function queues before it queues another one or leaves the machine running. -/

def retryDemand (s : Sender) (attempts sends : ℕ) : ℕ :=
  if attempts ≥ s.config.retryLimit then 0 else sends

def resumeDemand (s : Sender) (offset attempts : ℕ) : ℕ :=
  if offset > s.file.totalBytes ∨ attempts > s.config.retryLimit then 0
  else (s.resumeActions offset).length

def nextFileDemand (s : Sender) : ℕ := if s.fileIndex + 1 = s.files.length then 1 else 3

def receiverInitDemand (header : Header) : ℕ :=
  if ¬ hasRequiredCapabilities header then 0
  else if header.p₃ &&& zrinitEscctl = 0 then 2
  else 3

def headerDemand (s : Sender) (decoded : DecodedHeader) : ℕ :=
  let header := decoded.header
  match s.state with
  | .awaitReceiverInit _ =>
    match header.frameType with
    | .receiverInit => receiverInitDemand header
    | _ => 0
  | .awaitSenderInitAck attempts =>
    match header.frameType with
    | .ack => 3
    | .receiverInit | .nak => s.retryDemand attempts 2
    | _ => 0
  | .awaitOfferResponse attempts =>
    match header.frameType with
    | .receiverPosition => s.resumeDemand header.offset attempts
    | .skip => 1 + s.nextFileDemand
    | .receiverInit | .nak => s.retryDemand attempts 3
    | _ => 0
  | .awaitSource attempts =>
    match header.frameType with
    | .receiverPosition => s.resumeDemand header.offset (attempts + 1)
    | _ => 0
  | .awaitReceiverInitAfterFile attempts =>
    match header.frameType with
    | .receiverInit => 2 + s.nextFileDemand
    | .receiverPosition => s.resumeDemand header.offset attempts
    | .skip => 1 + s.nextFileDemand
    | .nak => s.retryDemand attempts 1
    | _ => 0
  | .awaitFinish attempts =>
    match header.frameType with
    | .finish => 1
    | .receiverInit | .nak => s.retryDemand attempts 1
    | _ => 0
  | .terminal => 0

def timeoutDemand (s : Sender) : ℕ :=
  match s.state with
  | .awaitSenderInitAck attempts => s.retryDemand attempts 2
  | .awaitOfferResponse attempts => s.retryDemand attempts 3
  | .awaitReceiverInitAfterFile attempts | .awaitFinish attempts => s.retryDemand attempts 1
  | _ => 0

/-- The header that comes next finds room. -/
def RoundHasRoom (s : Sender) : Prop :=
  ∀ wire decoded, s.wire.nextHeader = (wire, .ok (some decoded)) → s.Room (s.headerDemand decoded)

/-- A source chunk whose subpackets fit leaves room for what follows them. -/
def ChunkHasRoom (s : Sender) (bytes : List UInt8) : Prop :=
  s.AcceptsChunk bytes → s.Room (chunkPayloads bytes).length →
    s.Room ((chunkPayloads bytes).length + 2)

/-- **No function of the call runs into a full queue unawares.** -/
def HasRoom (s : Sender) : Move SenderCall → Prop
  | .call (.pushSerialBytes bytes) => ∀ t ∈ s.pushRounds bytes, t.RoundHasRoom
  | .call (.provideSourceChunk bytes) => s.ChunkHasRoom bytes
  | .call .onTimeout => s.Room s.timeoutDemand
  | .call .cancel => s.Room (if s.isTerminal then 0 else 1)
  | .take => True

end Sender

def SenderAction.isFailure : SenderAction → Bool
  | .failed _ => true
  | _ => false

namespace Sender

/-! ### The sender with room -/

/-- The queue is free of failures, or a failure closes it and the sender is terminal. -/
def Settled (s : Sender) : Prop :=
  Clean SenderAction.isFailure s.actions ∨
    s.state = .terminal ∧ Closed SenderAction.isFailure s.actions

variable {s : Sender}

theorem settled_append {as : List SenderAction} (h : Clean SenderAction.isFailure s.actions)
    (has : ∀ a ∈ as, a.isFailure = false) (st : SenderState) :
    ((s.append as).setState st).Settled :=
  .inl (Clean.append.mpr ⟨h, has⟩)

theorem settled_fail (h : Clean SenderAction.isFailure s.actions) (e : Error) :
    (s.fail e).Settled := by
  right
  refine ⟨rfl, ?_⟩
  by_cases hroom : s.Room 1
  · rw [fail, queue_of_room hroom]
    exact Closed.concat h rfl
  · have hfull : (s.queueSenderAction (.failed e)).1.actions =
        [.failed (.actionQueueFull maxPendingActions)] := by
      rw [queueSenderAction_of_full hroom]
    rw [fail, queue, setState_actions, hfull]
    exact Closed.singleton rfl

theorem settled_sendOffer (h : Clean SenderAction.isFailure s.actions) (hroom : s.Room 3)
    (attempts : ℕ) : (s.sendOffer attempts).Settled := by
  cases hm : s.offerMetadata with
  | error e =>
      rw [sendOffer_of_error hm]
      exact settled_fail h e
  | ok metadata =>
      rw [sendOffer_of_room hm hroom]
      exact settled_append h (by simp [offerActions, SenderAction.isFailure]) _

theorem settled_sendSenderInit (h : Clean SenderAction.isFailure s.actions) (hroom : s.Room 2)
    (attempts : ℕ) : (s.sendSenderInit attempts).Settled := by
  rw [sendSenderInit_of_room hroom]
  exact settled_append h (by simp [SenderAction.isFailure]) _

theorem settled_sendEndOfFile (h : Clean SenderAction.isFailure s.actions) (hroom : s.Room 1)
    (attempts : ℕ) : (s.sendEndOfFile attempts).Settled := by
  rw [sendEndOfFile_of_room hroom]
  exact settled_append h (by simp [SenderAction.isFailure]) _

theorem settled_sendFinish (h : Clean SenderAction.isFailure s.actions) (hroom : s.Room 1)
    (attempts : ℕ) : (s.sendFinish attempts).Settled := by
  rw [sendFinish_of_room hroom]
  exact settled_append h (by simp [SenderAction.isFailure]) _

theorem settled_requestSource (h : Clean SenderAction.isFailure s.actions) (hroom : s.Room 1)
    (attempts : ℕ) : (s.requestSource attempts).Settled := by
  rw [requestSource_of_room hroom]
  exact settled_append h (by simp [sourceRequest, SenderAction.isFailure]) _

theorem settled_retry {send : Sender → ℕ → Sender} {attempts sends : ℕ}
    (h : Clean SenderAction.isFailure s.actions) (hroom : s.Room (s.retryDemand attempts sends))
    (hsend : s.Room sends → (send s (attempts + 1)).Settled) :
    (retry send s attempts).Settled := by
  unfold retryDemand at hroom
  unfold retry
  split_ifs at hroom ⊢
  · exact settled_fail h _
  · exact hsend hroom

theorem settled_beginOrResumeSource {offset attempts : ℕ}
    (h : Clean SenderAction.isFailure s.actions)
    (hroom : s.Room (s.resumeDemand offset attempts)) :
    (s.beginOrResumeSource offset attempts).Settled := by
  unfold resumeDemand at hroom
  split_ifs at hroom with hbad
  · obtain ⟨e, he⟩ := beginOrResumeSource_of_error _ hbad
    rw [he]
    exact settled_fail h e
  · rw [beginOrResumeSource_of_room (by omega) (by omega) hroom]
    refine settled_append (s := s.moveTo offset) h ?_ _
    unfold resumeActions
    split_ifs <;> simp [sourceRequest, SenderAction.isFailure]

theorem settled_nextFile (h : Clean SenderAction.isFailure s.actions)
    (hroom : s.Room s.nextFileDemand) : s.nextFile.Settled := by
  rw [nextFile_eq]
  unfold nextFileDemand at hroom
  split_ifs at hroom ⊢
  · exact settled_sendFinish (s := s.advance) h hroom 1
  · exact settled_sendOffer (s := s.advance) h hroom 1

theorem settled_completeCurrentFile (h : Clean SenderAction.isFailure s.actions)
    (hroom : s.Room (2 + s.nextFileDemand)) : s.completeCurrentFile.Settled := by
  rw [completeCurrentFile_of_room (hroom.mono (by omega))]
  refine settled_nextFile (Clean.append.mpr ⟨h, ?_⟩) ?_
  · simp [completeActions, Clean, SenderAction.isFailure]
  · exact (room_append _).mpr hroom

theorem settled_skipCurrentFile (h : Clean SenderAction.isFailure s.actions)
    (hroom : s.Room (1 + s.nextFileDemand)) : s.skipCurrentFile.Settled := by
  rw [skipCurrentFile_of_room (hroom.mono (by omega))]
  refine settled_nextFile (Clean.append.mpr ⟨h, ?_⟩) ?_
  · simp [Clean, SenderAction.isFailure]
  · exact (room_append _).mpr hroom

theorem settled_queue {a : SenderAction} (h : Clean SenderAction.isFailure s.actions)
    (ha : a.isFailure = false) : (s.queue a).Settled := by
  by_cases hroom : s.Room 1
  · rw [queue_of_room hroom]
    exact .inl (Clean.append.mpr ⟨h, by simpa [Clean] using ha⟩)
  · rw [queue, queueSenderAction_of_full hroom]
    exact .inr ⟨rfl, Closed.singleton rfl⟩

theorem settled_completeBatch (h : Clean SenderAction.isFailure s.actions) (hroom : s.Room 1) :
    s.completeBatch.Settled := by
  rw [completeBatch_eq, queue_of_room hroom]
  have hlast := settled_queue (s := (s.append [.write overAndOut]).closeWire)
    (a := .batchCompleted (s.append [.write overAndOut]).batchSummary s.wire.input)
    (Clean.append.mpr ⟨h, by simp [Clean, SenderAction.isFailure]⟩) rfl
  exact hlast.imp id fun hl => ⟨rfl, hl.2⟩

theorem settled_handleReceiverInit {header : Header} (h : Clean SenderAction.isFailure s.actions)
    (hroom : s.Room (receiverInitDemand header)) : (s.handleReceiverInit header).Settled := by
  unfold receiverInitDemand at hroom
  unfold handleReceiverInit
  split_ifs at hroom ⊢
  · exact settled_sendSenderInit h hroom 1
  · exact settled_sendOffer h hroom 1
  · exact settled_fail h _

/-- **A header that finds room** leaves the sender settled. -/
theorem settled_handleHeader {decoded : DecodedHeader}
    (h : Clean SenderAction.isFailure s.actions) (hroom : s.Room (s.headerDemand decoded)) :
    (s.handleHeader decoded).Settled := by
  unfold handleHeader
  simp only
  split
  · exact settled_fail h _
  split
  · exact settled_fail h _
  split
  · rename_i hs
    split
    · rename_i ht
      simp only [headerDemand, hs, ht] at hroom
      exact settled_handleReceiverInit (s := { s with checksum := .crc16 }) h hroom
    · exact settled_queue h rfl
    · exact .inl h
  · rename_i hs
    split
    · rename_i ht
      simp only [headerDemand, hs, ht] at hroom
      exact settled_sendOffer h hroom 1
    · rename_i ht
      simp only [headerDemand, hs, ht] at hroom
      exact settled_retry h hroom fun hr => settled_sendSenderInit h hr _
    · rename_i ht
      simp only [headerDemand, hs, ht] at hroom
      exact settled_retry h hroom fun hr => settled_sendSenderInit h hr _
    · exact .inl h
  · rename_i hs
    split
    · rename_i ht
      simp only [headerDemand, hs, ht] at hroom
      exact settled_beginOrResumeSource h hroom
    · rename_i ht
      simp only [headerDemand, hs, ht] at hroom
      exact settled_skipCurrentFile h hroom
    · rename_i ht
      simp only [headerDemand, hs, ht] at hroom
      exact settled_retry h hroom fun hr => settled_sendOffer h hr _
    · rename_i ht
      simp only [headerDemand, hs, ht] at hroom
      exact settled_retry h hroom fun hr => settled_sendOffer h hr _
    · exact .inl h
  · rename_i hs
    split
    · rename_i ht
      simp only [headerDemand, hs, ht] at hroom
      exact settled_beginOrResumeSource h hroom
    · exact .inl h
  · rename_i hs
    split
    · rename_i ht
      simp only [headerDemand, hs, ht] at hroom
      exact settled_completeCurrentFile h hroom
    · rename_i ht
      simp only [headerDemand, hs, ht] at hroom
      exact settled_beginOrResumeSource h hroom
    · rename_i ht
      simp only [headerDemand, hs, ht] at hroom
      exact settled_skipCurrentFile h hroom
    · rename_i ht
      simp only [headerDemand, hs, ht] at hroom
      exact settled_retry h hroom fun hr => settled_sendEndOfFile h hr _
    · exact .inl h
  · rename_i hs
    split
    · rename_i ht
      simp only [headerDemand, hs, ht] at hroom
      exact settled_completeBatch h hroom
    · rename_i ht
      simp only [headerDemand, hs, ht] at hroom
      exact settled_retry h hroom fun hr => settled_sendFinish h hr _
    · rename_i ht
      simp only [headerDemand, hs, ht] at hroom
      exact settled_retry h hroom fun hr => settled_sendFinish h hr _
    · exact .inl h
  · exact .inl h

theorem settled_pumpHeader (h : Clean SenderAction.isFailure s.actions) (hroom : s.RoundHasRoom) :
    s.pumpHeader.1.Settled := by
  unfold pumpHeader
  split
  · rename_i wire decoded hn
    exact settled_handleHeader (s := { s with wire }) h (hroom wire decoded hn)
  · exact .inl h
  · rename_i wire _
    exact settled_fail (s := { s with wire }) h _
  · exact .inl h
  · exact .inl h
  · rename_i wire _ _ _ _ _
    exact settled_fail (s := { s with wire }) h _

/-- A settled sender that still runs has a clean queue. -/
theorem Settled.clean (h : s.Settled) (hs : s.state ≠ .terminal) :
    Clean SenderAction.isFailure s.actions :=
  h.resolve_right fun ht => hs ht.1

theorem settled_pushSerialBytes {bytes : List UInt8} (h : Clean SenderAction.isFailure s.actions)
    (hroom : ∀ t ∈ s.pushRounds bytes, t.RoundHasRoom) : (s.pushSerialBytes bytes).1.Settled := by
  unfold pushSerialBytes
  split
  · exact .inl h
  split
  · exact .inl h
  · rename_i wire hp
    unfold pushRounds at hroom
    simp only [hp] at hroom
    refine loop_invariant (I := Settled) ?_ (.inl h)
    intro t ht hrun hset
    exact settled_pumpHeader (hset.clean (not_terminal_of_running hrun)) (hroom t ht)

theorem settled_provideSourceChunk {bytes : List UInt8}
    (h : Clean SenderAction.isFailure s.actions) (hroom : s.ChunkHasRoom bytes) :
    (s.provideSourceChunk bytes).1.Settled := by
  by_cases hs : ∃ attempts, s.state = .awaitSource attempts
  · obtain ⟨attempts, hs⟩ := hs
    by_cases hacc : s.AcceptsChunk bytes
    · by_cases hfit : s.Room (chunkPayloads bytes).length
      · have hroom' := hroom hacc hfit
        rw [provideSourceChunk_of_room hs hacc hroom']
        simp only [append_append]
        have hclean : Clean SenderAction.isFailure ((s.moveTo (s.offset + bytes.length)).append
            (s.chunkActions (s.isFinalChunk bytes) (chunkPayloads bytes) ++
              [s.chunkProgress bytes])).actions := by
          refine Clean.append.mpr ⟨h, Clean.append.mpr ⟨fun a ha => ?_, by
            simp [Clean, chunkProgress, SenderAction.isFailure]⟩⟩
          obtain ⟨bytes, rfl⟩ := eq_write_of_mem_chunkActions ha
          rfl
        have hroom₁ : ((s.moveTo (s.offset + bytes.length)).append
            (s.chunkActions (s.isFinalChunk bytes) (chunkPayloads bytes) ++
              [s.chunkProgress bytes])).Room 1 := by
          simpa [length_chunkActions, Nat.add_assoc] using hroom'
        split
        · exact settled_sendEndOfFile hclean hroom₁ 1
        · exact settled_requestSource hclean hroom₁ _
      · rw [provideSourceChunk_of_full hs hacc hfit]
        exact .inr ⟨rfl, Closed.singleton rfl⟩
    · obtain ⟨e, he⟩ := provideSourceChunk_of_refused hacc
      rw [he]
      exact .inl h
  · rw [provideSourceChunk_of_state fun a ha => hs ⟨a, ha⟩]
    exact .inl h

theorem settled_onTimeout (h : Clean SenderAction.isFailure s.actions)
    (hroom : s.Room s.timeoutDemand) : s.onTimeout.1.Settled := by
  unfold onTimeout
  split
  · exact .inl h
  simp only
  split
  all_goals rename_i hs
  · split
    · exact settled_fail (s := { s with wire := s.wire.reset }) h _
    · exact .inl h
  · simp only [timeoutDemand, hs] at hroom
    exact settled_retry (s := { s with wire := s.wire.reset }) h hroom fun hr =>
      settled_sendOffer (s := { s with wire := s.wire.reset }) h hr _
  · simp only [timeoutDemand, hs] at hroom
    exact settled_retry (s := { s with wire := s.wire.reset }) h hroom fun hr =>
      settled_sendSenderInit (s := { s with wire := s.wire.reset }) h hr _
  · simp only [timeoutDemand, hs] at hroom
    exact settled_retry (s := { s with wire := s.wire.reset }) h hroom fun hr =>
      settled_sendEndOfFile (s := { s with wire := s.wire.reset }) h hr _
  · simp only [timeoutDemand, hs] at hroom
    exact settled_retry (s := { s with wire := s.wire.reset }) h hroom fun hr =>
      settled_sendFinish (s := { s with wire := s.wire.reset }) h hr _
  · exact .inl h
  · exact .inl h

theorem settled_cancel (h : Clean SenderAction.isFailure s.actions)
    (hroom : s.Room (if s.isTerminal then 0 else 1)) : s.cancel.1.Settled := by
  unfold cancel
  split_ifs at hroom ⊢
  · exact .inl h
  · rw [queue_of_room hroom]
    exact settled_fail (Clean.append.mpr ⟨h, by simp [Clean, SenderAction.isFailure]⟩) _

/-! ### The sender's runs -/

theorem settled_call {c : SenderCall} (h : Clean SenderAction.isFailure s.actions)
    (hroom : s.HasRoom (.call c)) : (s.call c).1.Settled := by
  cases c with
  | pushSerialBytes bytes => exact settled_pushSerialBytes h hroom
  | provideSourceChunk bytes => exact settled_provideSourceChunk h hroom
  | onTimeout => exact settled_onTimeout h hroom
  | cancel => exact settled_cancel h hroom

theorem sound_of_hasRoom {files : List FileMetadata} {config : Config} {s₀ : Sender}
    {moves : List (Move SenderCall)} {d : Driven Sender SenderAction}
    (hnew : new files config = .ok s₀) (h : Run (actor.Step HasRoom) ⟨s₀, []⟩ moves d) :
    Sound actor SenderAction.isFailure (·.state = .terminal) d := by
  have hterminal : ∀ (s : Sender) c, s.state = .terminal → (actor.call s c).1 = s :=
    fun _ c hs => call_of_terminal hs c
  refine sound_of_run hterminal (fun _ hs => hs) ?_ (.inl ?_) h
  · intro s c _ hroom hclean
    exact settled_call hclean hroom
  · unfold new at hnew
    split_ifs at hnew
    obtain rfl := Except.ok.inj hnew
    exact Clean.nil

end Sender

end Netcatty.Serial.Zmodem
