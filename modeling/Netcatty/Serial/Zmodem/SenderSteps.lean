import Netcatty.Library.Driver
import Netcatty.Serial.Zmodem.RoundTrip
import Netcatty.Serial.Zmodem.Sender

/-! # What the sender's functions do

With room in the queue a sending function appends its actions and moves to its state
(`sendOffer_of_room` and its companions).  `pumpHeaders_next` says that the loop over the
headers never lacks fuel. -/

namespace Netcatty.Serial.Zmodem

inductive SenderCall where
  | pushSerialBytes (bytes : List UInt8)
  | provideSourceChunk (bytes : List UInt8)
  | onTimeout
  | cancel

namespace Sender

open Netcatty.Driver Netcatty.Loop

/-! ### The queue -/

section Frame

variable (s : Sender) (a : SenderAction) (st : SenderState) (e : Error)

@[simp] theorem queue_config : (s.queue a).config = s.config := by
  unfold queue queueSenderAction; split_ifs <;> rfl

@[simp] theorem queue_files : (s.queue a).files = s.files := by
  unfold queue queueSenderAction; split_ifs <;> rfl

@[simp] theorem queue_wire : (s.queue a).wire = s.wire := by
  unfold queue queueSenderAction; split_ifs <;> rfl

@[simp] theorem queue_fileIndex : (s.queue a).fileIndex = s.fileIndex := by
  unfold queue queueSenderAction; split_ifs <;> rfl

@[simp] theorem queue_offset : (s.queue a).offset = s.offset := by
  unfold queue queueSenderAction; split_ifs <;> rfl

@[simp] theorem queue_checksum : (s.queue a).checksum = s.checksum := by
  unfold queue queueSenderAction; split_ifs <;> rfl

@[simp] theorem queue_file : (s.queue a).file = s.file := by simp [file]

@[simp] theorem queue_escapes : (s.queue a).escapes = s.escapes := by simp [escapes]

@[simp] theorem setState_config : (s.setState st).config = s.config := rfl
@[simp] theorem setState_files : (s.setState st).files = s.files := rfl
@[simp] theorem setState_wire : (s.setState st).wire = s.wire := rfl
@[simp] theorem setState_state : (s.setState st).state = st := rfl
@[simp] theorem setState_actions : (s.setState st).actions = s.actions := rfl
@[simp] theorem setState_fileIndex : (s.setState st).fileIndex = s.fileIndex := rfl
@[simp] theorem setState_offset : (s.setState st).offset = s.offset := rfl
@[simp] theorem setState_checksum : (s.setState st).checksum = s.checksum := rfl
@[simp] theorem setState_file : (s.setState st).file = s.file := rfl
@[simp] theorem setState_escapes : (s.setState st).escapes = s.escapes := rfl
@[simp] theorem setState_sourceMaximum : (s.setState st).sourceMaximum = s.sourceMaximum := rfl

@[simp] theorem setState_setState (st' : SenderState) :
    (s.setState st').setState st = s.setState st := rfl

@[simp] theorem fail_config : (s.fail e).config = s.config := by simp [fail]
@[simp] theorem fail_files : (s.fail e).files = s.files := by simp [fail]
@[simp] theorem fail_wire : (s.fail e).wire = s.wire := by simp [fail]
@[simp] theorem fail_state : (s.fail e).state = .terminal := rfl
@[simp] theorem fail_fileIndex : (s.fail e).fileIndex = s.fileIndex := by simp [fail]
@[simp] theorem fail_checksum : (s.fail e).checksum = s.checksum := by simp [fail]

end Frame

variable {s : Sender}

theorem isTerminal_iff : s.isTerminal = true ↔ s.state = .terminal := by
  simp [isTerminal]

/-- The queue has room for `n` more actions. -/
def Room (s : Sender) (n : ℕ) : Prop := s.actions.length + n ≤ maxPendingActions

theorem Room.mono {n m : ℕ} (h : s.Room n) (hm : m ≤ n) : s.Room m := by
  unfold Room at *
  omega

/-- The sender with more actions in its queue. -/
def append (s : Sender) (actions : List SenderAction) : Sender :=
  { s with actions := s.actions ++ actions }

section Append

variable (as bs : List SenderAction)

@[simp] theorem append_config : (s.append as).config = s.config := rfl
@[simp] theorem append_files : (s.append as).files = s.files := rfl
@[simp] theorem append_wire : (s.append as).wire = s.wire := rfl
@[simp] theorem append_state : (s.append as).state = s.state := rfl
@[simp] theorem append_actions : (s.append as).actions = s.actions ++ as := rfl
@[simp] theorem append_fileIndex : (s.append as).fileIndex = s.fileIndex := rfl
@[simp] theorem append_offset : (s.append as).offset = s.offset := rfl
@[simp] theorem append_checksum : (s.append as).checksum = s.checksum := rfl
@[simp] theorem append_file : (s.append as).file = s.file := rfl
@[simp] theorem append_escapes : (s.append as).escapes = s.escapes := rfl
@[simp] theorem append_sourceMaximum : (s.append as).sourceMaximum = s.sourceMaximum := rfl

@[simp] theorem append_append : (s.append as).append bs = s.append (as ++ bs) := by
  simp [append]

@[simp] theorem append_setState (st : SenderState) :
    (s.setState st).append as = (s.append as).setState st := rfl

@[simp] theorem room_append {n : ℕ} : (s.append as).Room n ↔ s.Room (as.length + n) := by
  simp only [Room, append_actions, List.length_append, Nat.add_assoc]

@[simp] theorem room_setState {n : ℕ} {st : SenderState} : (s.setState st).Room n ↔ s.Room n :=
  Iff.rfl

end Append

theorem queueSenderAction_of_room (h : s.Room 1) (a : SenderAction) :
    s.queueSenderAction a = (s.append [a], true) := by
  unfold Room at h
  rw [queueSenderAction, if_neg (by omega)]
  rfl

theorem queue_of_room (h : s.Room 1) (a : SenderAction) :
    s.queue a = s.append [a] := by
  rw [queue, queueSenderAction_of_room h]

theorem queueSenderAction_of_full (h : ¬ s.Room 1) (a : SenderAction) :
    s.queueSenderAction a = ({ s with
      actions := [.failed (.actionQueueFull maxPendingActions)]
      state := .terminal }, false) := by
  unfold Room at h
  rw [queueSenderAction, if_pos (by omega)]

theorem not_terminal_of_running (h : s.running = true) : s.state ≠ .terminal := by
  intro ht
  simp [running, isTerminal, ht] at h

/-! ### Sending with room -/

theorem sendEndOfFile_of_room (h : s.Room 1) (attempts : ℕ) :
    s.sendEndOfFile attempts =
      (s.append [.write (encodeHexHeader (.withOffset .endOfFile s.offset))]).setState
        (.awaitReceiverInitAfterFile attempts) := by
  rw [sendEndOfFile, queue_of_room h]

theorem sendFinish_of_room (h : s.Room 1) (attempts : ℕ) :
    s.sendFinish attempts =
      (s.append [.write (encodeHexHeader ⟨.finish, 0, 0, 0, 0⟩)]).setState
        (.awaitFinish attempts) := by
  rw [sendFinish, queue_of_room h]

/-- The request for the source at the current offset. -/
def sourceRequest (s : Sender) : SenderAction :=
  .readSource s.fileIndex s.offset s.sourceMaximum

theorem requestSource_of_room (h : s.Room 1) (attempts : ℕ) :
    s.requestSource attempts =
      (s.append [s.sourceRequest]).setState (.awaitSource attempts) := by
  rw [requestSource, queue_of_room h]
  rfl

theorem encodeSubpacket_of_le {payload : List UInt8} (h : payload.length ≤ maxSubpacketBytes)
    (frameEnd : FrameEnd) (checksum : Checksum) (esc : Bool) :
    encodeSubpacket payload frameEnd checksum esc =
      .ok (subpacketBytes payload frameEnd checksum esc) := by
  rw [encodeSubpacket, if_neg (by omega)]

theorem sendSenderInit_of_room (h : s.Room 2) (attempts : ℕ) :
    s.sendSenderInit attempts =
      (s.append [.write (encodeHexHeader ⟨.senderInit, 0, 0, 0, zrinitEscctl⟩),
        .write (subpacketBytes [0] .endAck .crc16 s.escapes)]).setState
        (.awaitSenderInitAck attempts) := by
  rw [sendSenderInit, queue_of_room (h.mono (by omega)), encodeSubpacket_of_le (by decide)]
  simp only
  rw [queue_of_room (by simpa using h)]
  simp

/-- The metadata an offer carries. -/
def offerMetadata (s : Sender) : Except Error (List UInt8) :=
  encodeFileMetadata s.file (s.files.length - s.fileIndex)
    ((s.files.drop s.fileIndex).map (·.totalBytes)).sum

theorem offerMetadata_length {metadata : List UInt8} (h : s.offerMetadata = .ok metadata) :
    metadata.length ≤ maxSubpacketBytes := by
  unfold offerMetadata encodeFileMetadata at h
  simp only at h
  split_ifs at h with hlen
  obtain rfl := Except.ok.inj h
  exact (Nat.not_lt.mp hlen).trans (by decide)

theorem sendOffer_of_error {e : Error} (h : s.offerMetadata = .error e) (attempts : ℕ) :
    s.sendOffer attempts = s.fail e := by
  unfold offerMetadata at h
  simp only [sendOffer, h]

/-- What an offer queues. -/
def offerActions (s : Sender) (metadata : List UInt8) : List SenderAction :=
  [.write (encodeBinaryHeader ⟨.file, 0, 0, 0, 1⟩ s.checksum s.escapes),
    .write (subpacketBytes metadata .endAck s.checksum s.escapes),
    .progress {
      fileIndex := s.fileIndex
      fileCount := s.files.length
      transferredBytes := 0
      totalBytes := s.file.totalBytes
      stage := .header }]

theorem sendOffer_of_room {metadata : List UInt8} (hm : s.offerMetadata = .ok metadata)
    (h : s.Room 3) (attempts : ℕ) :
    s.sendOffer attempts =
      (s.append (s.offerActions metadata)).setState (.awaitOfferResponse attempts) := by
  have hlen := offerMetadata_length hm
  unfold offerMetadata at hm
  simp only [sendOffer, hm]
  have h₁ : ∀ a, (s.append [a]).Room 1 := fun a => by simpa using h.mono (show 2 ≤ 3 by omega)
  have h₂ : ∀ a b, (s.append [a, b]).Room 1 := fun a b => by simpa using h
  rw [queue_of_room (h.mono (by omega))]
  simp only [append_checksum, append_escapes, encodeSubpacket_of_le hlen, queue_of_room (h₁ _),
    append_append, List.singleton_append, queue_of_room (h₂ _ _)]
  simp [offerActions]

/-- The sender at another offset of its file. -/
def moveTo (s : Sender) (offset : ℕ) : Sender := { s with offset }

section MoveTo

variable (offset : ℕ)

@[simp] theorem moveTo_config : (s.moveTo offset).config = s.config := rfl
@[simp] theorem moveTo_files : (s.moveTo offset).files = s.files := rfl
@[simp] theorem moveTo_wire : (s.moveTo offset).wire = s.wire := rfl
@[simp] theorem moveTo_state : (s.moveTo offset).state = s.state := rfl
@[simp] theorem moveTo_actions : (s.moveTo offset).actions = s.actions := rfl
@[simp] theorem moveTo_fileIndex : (s.moveTo offset).fileIndex = s.fileIndex := rfl
@[simp] theorem moveTo_offset : (s.moveTo offset).offset = offset := rfl
@[simp] theorem moveTo_checksum : (s.moveTo offset).checksum = s.checksum := rfl
@[simp] theorem moveTo_file : (s.moveTo offset).file = s.file := rfl
@[simp] theorem moveTo_escapes : (s.moveTo offset).escapes = s.escapes := rfl

@[simp] theorem room_moveTo {n : ℕ} : (s.moveTo offset).Room n ↔ s.Room n := Iff.rfl

end MoveTo

/-- What `begin_or_resume_source` queues. -/
def resumeActions (s : Sender) (offset : ℕ) : List SenderAction :=
  .write (encodeBinaryHeader (.withOffset .data offset) s.checksum s.escapes) ::
    if offset = s.file.totalBytes then
      [.write (subpacketBytes [] .endNoAck s.checksum s.escapes),
        .write (encodeHexHeader (.withOffset .endOfFile offset))]
    else [(s.moveTo offset).sourceRequest]

theorem beginOrResumeSource_of_error (s : Sender) {offset attempts : ℕ}
    (h : offset > s.file.totalBytes ∨ attempts > s.config.retryLimit) :
    ∃ e, s.beginOrResumeSource offset attempts = s.fail e := by
  unfold beginOrResumeSource
  by_cases h₁ : offset > s.file.totalBytes
  · exact ⟨_, if_pos h₁⟩
  · have h₂ : attempts > s.config.retryLimit := h.resolve_left h₁
    exact ⟨_, by rw [if_neg h₁, if_pos h₂]⟩

theorem beginOrResumeSource_of_le {offset attempts : ℕ} (ho : offset ≤ s.file.totalBytes)
    (ha : attempts ≤ s.config.retryLimit) :
    s.beginOrResumeSource offset attempts =
      let t := ((s.moveTo offset).queue (.write (encodeBinaryHeader (.withOffset .data offset)
        s.checksum s.escapes))).setState (.awaitSource attempts)
      if offset = s.file.totalBytes then
        (t.queue (.write (subpacketBytes [] .endNoAck s.checksum s.escapes))).sendEndOfFile 1
      else t.requestSource attempts := by
  unfold beginOrResumeSource
  rw [if_neg (by omega), if_neg (by omega)]
  simp only [setState_offset, queue_offset, setState_file, queue_file, setState_checksum,
    queue_checksum, setState_escapes, queue_escapes,
    encodeSubpacket_of_le (show ([] : List UInt8).length ≤ maxSubpacketBytes by decide)]
  rfl

theorem beginOrResumeSource_of_room {offset attempts : ℕ} (ho : offset ≤ s.file.totalBytes)
    (ha : attempts ≤ s.config.retryLimit) (h : s.Room (s.resumeActions offset).length) :
    s.beginOrResumeSource offset attempts =
      ((s.moveTo offset).append (s.resumeActions offset)).setState
        (if offset = s.file.totalBytes then .awaitReceiverInitAfterFile 1
          else .awaitSource attempts) := by
  rw [beginOrResumeSource_of_le ho ha]
  unfold resumeActions at h ⊢
  rw [queue_of_room (by simpa using h.mono (show 1 ≤ _ by simp))]
  by_cases hlast : offset = s.file.totalBytes
  · simp only [if_pos hlast] at h ⊢
    rw [queue_of_room (by simpa using h.mono (show 2 ≤ _ by simp)),
      sendEndOfFile_of_room (by simpa using h)]
    simp
  · simp only [if_neg hlast] at h ⊢
    rw [requestSource_of_room (by simpa using h)]
    simp [sourceRequest]

/-- The sender at the start of the next file. -/
def advance (s : Sender) : Sender := { s with fileIndex := s.fileIndex + 1, offset := 0 }

theorem nextFile_eq (s : Sender) : s.nextFile =
    if s.fileIndex + 1 = s.files.length then s.advance.sendFinish 1 else s.advance.sendOffer 1 :=
  rfl

/-- What the completion of a file queues before the next one. -/
def completeActions (s : Sender) : List SenderAction :=
  [.progress {
    fileIndex := s.fileIndex
    fileCount := s.files.length
    transferredBytes := s.file.totalBytes
    totalBytes := s.file.totalBytes
    stage := .complete },
    .fileCompleted ⟨s.fileIndex, s.file.totalBytes, s.file.totalBytes⟩]

def countCompleted (s : Sender) : Sender :=
  { s with
    completedFiles := s.completedFiles + 1
    transferredBytes := saturatingAdd s.transferredBytes s.file.totalBytes }

def countSkipped (s : Sender) : Sender := { s with skippedFiles := s.skippedFiles + 1 }

theorem completeCurrentFile_eq (s : Sender) : s.completeCurrentFile =
    ((s.countCompleted.queue (.progress {
      fileIndex := s.fileIndex
      fileCount := s.files.length
      transferredBytes := s.file.totalBytes
      totalBytes := s.file.totalBytes
      stage := .complete })).queue
      (.fileCompleted ⟨s.fileIndex, s.file.totalBytes, s.file.totalBytes⟩)).nextFile := by
  unfold completeCurrentFile
  simp only [queue_fileIndex]
  rfl

theorem completeCurrentFile_of_room (h : s.Room 2) :
    s.completeCurrentFile = (s.countCompleted.append s.completeActions).nextFile := by
  have hroom : ∀ n, s.countCompleted.Room n ↔ s.Room n := fun _ => Iff.rfl
  have h₁ : ∀ a, s.countCompleted.queue a = s.countCompleted.append [a] :=
    queue_of_room ((hroom _).mpr (h.mono (by omega)))
  have h₂ : ∀ a, (s.countCompleted.append [a]).Room 1 := fun a => by simpa [hroom] using h
  rw [completeCurrentFile_eq, h₁, queue_of_room (h₂ _), append_append]
  rfl

theorem skipCurrentFile_of_room (h : s.Room 1) :
    s.skipCurrentFile = (s.countSkipped.append [.fileSkipped s.fileIndex]).nextFile := by
  unfold skipCurrentFile
  rw [queue_of_room h]
  rfl

/-- The sender that has let go of its input. -/
def closeWire (s : Sender) : Sender := { s with wire := {} }

def batchSummary (s : Sender) : BatchSummary where
  fileCount := s.files.length
  completedFiles := s.completedFiles
  skippedFiles := s.skippedFiles
  totalBytes := s.batchTotalBytes
  transferredBytes := s.transferredBytes

theorem completeBatch_eq (s : Sender) : s.completeBatch =
    ((s.queue (.write overAndOut)).closeWire.queue
      (.batchCompleted (s.queue (.write overAndOut)).batchSummary s.wire.input)).setState
        .terminal := by
  unfold completeBatch
  simp only [queue_wire]
  rfl

/-! ### Source chunks -/

/-- The subpackets of a source chunk. -/
def chunkActions (s : Sender) (finalChunk : Bool) : List (List UInt8) → List SenderAction
  | [] => []
  | chunk :: rest =>
    .write (subpacketBytes chunk
      (if finalChunk && rest.isEmpty then .endNoAck else .continueNoAck) s.checksum s.escapes) ::
      s.chunkActions finalChunk rest

theorem length_chunkActions (finalChunk : Bool) (chunks : List (List UInt8)) :
    (s.chunkActions finalChunk chunks).length = chunks.length := by
  induction chunks with
  | nil => rfl
  | cons chunk rest ih => simp [chunkActions, ih]

theorem eq_write_of_mem_chunkActions {finalChunk : Bool} {chunks : List (List UInt8)}
    {a : SenderAction} (h : a ∈ s.chunkActions finalChunk chunks) : ∃ bytes, a = .write bytes := by
  induction chunks with
  | nil => cases h
  | cons chunk rest ih =>
      rcases List.mem_cons.mp h with rfl | h
      · exact ⟨_, rfl⟩
      · exact ih h

theorem chunkActions_append (as : List SenderAction) (finalChunk : Bool)
    (chunks : List (List UInt8)) :
    (s.append as).chunkActions finalChunk chunks = s.chunkActions finalChunk chunks := by
  induction chunks with
  | nil => rfl
  | cons chunk rest ih => simp [chunkActions, ih]

theorem writeChunks_of_room {finalChunk : Bool} {chunks : List (List UInt8)}
    (hlen : ∀ chunk ∈ chunks, chunk.length ≤ maxSubpacketBytes) (h : s.Room chunks.length) :
    writeChunks finalChunk chunks s = (s.append (s.chunkActions finalChunk chunks), .ok true) := by
  induction chunks generalizing s with
  | nil => simp [writeChunks, chunkActions, append]
  | cons chunk rest ih =>
      have hrest : ∀ a, (s.append [a]).Room rest.length := fun a => by
        simpa [Nat.add_comm] using h
      unfold writeChunks
      simp only [encodeSubpacket_of_le (hlen chunk (by simp))]
      rw [queueSenderAction_of_room (h.mono (by simp))]
      simp only
      rw [ih (fun c hc => hlen c (by simp [hc])) (hrest _), chunkActions_append, append_append]
      rfl

/-- A chunk that does not fit ends the transfer. -/
theorem writeChunks_of_full {finalChunk : Bool} {chunks : List (List UInt8)}
    (hlen : ∀ chunk ∈ chunks, chunk.length ≤ maxSubpacketBytes) (hne : chunks ≠ [])
    (h : ¬ s.Room chunks.length) :
    writeChunks finalChunk chunks s = ({ s with
      actions := [.failed (.actionQueueFull maxPendingActions)]
      state := .terminal }, .ok false) := by
  induction chunks generalizing s with
  | nil => exact absurd rfl hne
  | cons chunk rest ih =>
      unfold writeChunks
      simp only [encodeSubpacket_of_le (hlen chunk (by simp))]
      by_cases h₁ : s.Room 1
      · have hrest : ∀ a, ¬ (s.append [a]).Room rest.length := fun a => by
          simpa [Nat.add_comm] using h
        have hrest₀ : rest ≠ [] := by
          rintro rfl
          exact h h₁
        rw [queueSenderAction_of_room h₁]
        simp only
        rw [ih (fun c hc => hlen c (by simp [hc])) hrest₀ (hrest _)]
        rfl
      · rw [queueSenderAction_of_full h₁]

theorem length_chunkPayloads_le (bytes : List UInt8) :
    ∀ chunk ∈ chunkPayloads bytes, chunk.length ≤ maxSubpacketBytes := by
  intro chunk hc
  unfold chunkPayloads at hc
  split_ifs at hc
  · simp only [List.mem_singleton] at hc
    simp [hc]
  · obtain ⟨i, -, rfl⟩ := List.mem_map.mp hc
    have hwire : wireSubpacketBytes ≤ maxSubpacketBytes := by decide
    simp only [List.length_take, List.length_drop]
    omega

theorem chunkPayloads_ne_nil (bytes : List UInt8) : chunkPayloads bytes ≠ [] := by
  cases bytes with
  | nil => simp [chunkPayloads]
  | cons b rest =>
      have hwire : 0 < wireSubpacketBytes := by decide
      have hpos : 0 < ((b :: rest).length + wireSubpacketBytes - 1) / wireSubpacketBytes :=
        Nat.div_pos (by simp only [List.length_cons]; omega) hwire
      unfold chunkPayloads wireChunks
      simp only [List.isEmpty_cons, Bool.false_eq_true, if_false, ne_eq, List.map_eq_nil_iff,
        List.range_eq_nil]
      omega

/-- The driver may provide these bytes now. -/
def AcceptsChunk (s : Sender) (bytes : List UInt8) : Prop :=
  s.offset ≤ s.file.totalBytes ∧ bytes.length ≤ s.sourceMaximum ∧
    (bytes = [] → s.offset = s.file.totalBytes)

theorem provideSourceChunk_of_state {bytes : List UInt8} (h : ∀ a, s.state ≠ .awaitSource a) :
    s.provideSourceChunk bytes = (s, .error .invalidState) := by
  unfold provideSourceChunk
  split
  · exact absurd ‹_› (h _)
  · rfl

theorem provideSourceChunk_of_refused {bytes : List UInt8} (h : ¬ s.AcceptsChunk bytes) :
    ∃ e, s.provideSourceChunk bytes = (s, .error e) := by
  unfold provideSourceChunk
  split
  · by_cases ho : s.offset > s.file.totalBytes
    · exact ⟨_, if_pos ho⟩
    · simp only
      rw [if_neg ho]
      refine ⟨_, if_pos ?_⟩
      unfold AcceptsChunk at h
      by_cases hb : bytes = []
      · right
        subst hb
        simp only [List.isEmpty_nil, true_and]
        simp only [List.length_nil, Nat.zero_le, true_and, forall_const] at h
        omega
      · left
        by_contra hle
        exact h ⟨by omega, by omega, fun hb' => absurd hb' hb⟩
  · exact ⟨_, rfl⟩

/-- Whether a chunk is the last one of its file. -/
def isFinalChunk (s : Sender) (bytes : List UInt8) : Bool :=
  decide (bytes.length = s.file.totalBytes - s.offset)

theorem provideSourceChunk_of_accepts {bytes : List UInt8} {attempts : ℕ}
    (hs : s.state = .awaitSource attempts) (h : s.AcceptsChunk bytes) :
    s.provideSourceChunk bytes =
      match writeChunks (s.isFinalChunk bytes) (chunkPayloads bytes) s with
      | (s, .error e) => (s, .error e)
      | (s, .ok false) => (s, .ok ())
      | (t, .ok true) =>
        let u := (t.moveTo (t.offset + bytes.length)).queue (.progress {
          fileIndex := t.fileIndex
          fileCount := t.files.length
          transferredBytes := t.offset + bytes.length
          totalBytes := s.file.totalBytes
          stage := if s.isFinalChunk bytes then .finalizing else .data })
        (if s.isFinalChunk bytes then u.sendEndOfFile 1 else u.requestSource attempts, .ok ()) := by
  obtain ⟨ho, hle, hempty⟩ := h
  unfold provideSourceChunk
  simp only [hs]
  rw [if_neg (by omega), if_neg]
  · rfl
  · rintro (hlt | ⟨hnil, hrem⟩)
    · omega
    · have := hempty (List.isEmpty_iff.mp hnil)
      omega

/-- What the driver learns of a source chunk. -/
def chunkProgress (s : Sender) (bytes : List UInt8) : SenderAction :=
  .progress {
    fileIndex := s.fileIndex
    fileCount := s.files.length
    transferredBytes := s.offset + bytes.length
    totalBytes := s.file.totalBytes
    stage := if s.isFinalChunk bytes then .finalizing else .data }

/-- **A source chunk that fits** goes out in subpackets, and the end of the file or the request for
the next chunk follows. -/
theorem provideSourceChunk_of_room {bytes : List UInt8} {attempts : ℕ}
    (hs : s.state = .awaitSource attempts) (h : s.AcceptsChunk bytes)
    (hroom : s.Room ((chunkPayloads bytes).length + 2)) :
    s.provideSourceChunk bytes =
      (let t := ((s.moveTo (s.offset + bytes.length)).append
          (s.chunkActions (s.isFinalChunk bytes) (chunkPayloads bytes))).append
            [s.chunkProgress bytes]
        if s.isFinalChunk bytes then t.sendEndOfFile 1 else t.requestSource attempts, .ok ()) := by
  rw [provideSourceChunk_of_accepts hs h, writeChunks_of_room (length_chunkPayloads_le bytes)
    (hroom.mono (by omega))]
  simp only
  rw [queue_of_room (by
    simp only [room_moveTo, room_append, length_chunkActions]
    exact hroom.mono (by omega))]
  rfl

theorem provideSourceChunk_of_full {bytes : List UInt8} {attempts : ℕ}
    (hs : s.state = .awaitSource attempts) (h : s.AcceptsChunk bytes)
    (hfull : ¬ s.Room (chunkPayloads bytes).length) :
    s.provideSourceChunk bytes = ({ s with
      actions := [.failed (.actionQueueFull maxPendingActions)]
      state := .terminal }, .ok ()) := by
  rw [provideSourceChunk_of_accepts hs h,
    writeChunks_of_full (length_chunkPayloads_le bytes) (chunkPayloads_ne_nil bytes) hfull]

/-! ### The loop over the headers -/

/-- `t` has the configuration and the batch of `s`, and no more input. -/
structure Keeps (s t : Sender) : Prop where
  config : t.config = s.config
  files : t.files = s.files
  input : t.wire.input.length ≤ s.wire.input.length

namespace Keeps

variable {t u : Sender}

theorem refl (s : Sender) : Keeps s s := ⟨rfl, rfl, le_rfl⟩

theorem trans (h : Keeps s t) (h' : Keeps t u) : Keeps s u :=
  ⟨h'.config.trans h.config, h'.files.trans h.files, h'.input.trans h.input⟩

theorem queue (h : Keeps s t) (a : SenderAction) : Keeps s (t.queue a) :=
  h.trans ⟨by simp, by simp, by simp⟩

theorem setState (h : Keeps s t) (st : SenderState) : Keeps s (t.setState st) :=
  h.trans ⟨rfl, rfl, le_rfl⟩

theorem fail (h : Keeps s t) (e : Error) : Keeps s (t.fail e) := (h.queue _).setState _

theorem sendOffer (h : Keeps s t) (attempts : ℕ) : Keeps s (t.sendOffer attempts) := by
  unfold Sender.sendOffer
  simp only
  split
  · exact h.fail _
  · split
    · exact (h.queue _).fail _
    · exact (((h.queue _).queue _).queue _).setState _

theorem sendSenderInit (h : Keeps s t) (attempts : ℕ) : Keeps s (t.sendSenderInit attempts) := by
  unfold Sender.sendSenderInit
  simp only
  split
  · exact (h.queue _).fail _
  · exact ((h.queue _).queue _).setState _

theorem sendEndOfFile (h : Keeps s t) (attempts : ℕ) : Keeps s (t.sendEndOfFile attempts) :=
  (h.queue _).setState _

theorem sendFinish (h : Keeps s t) (attempts : ℕ) : Keeps s (t.sendFinish attempts) :=
  (h.queue _).setState _

theorem requestSource (h : Keeps s t) (attempts : ℕ) : Keeps s (t.requestSource attempts) :=
  (h.queue _).setState _

theorem retry {send : Sender → ℕ → Sender} (h : Keeps s t)
    (hsend : ∀ n, Keeps s (send t n)) (attempts : ℕ) : Keeps s (Sender.retry send t attempts) := by
  unfold Sender.retry
  split_ifs
  · exact h.fail _
  · exact hsend _

theorem beginOrResumeSource (h : Keeps s t) (offset attempts : ℕ) :
    Keeps s (t.beginOrResumeSource offset attempts) := by
  by_cases hle : offset ≤ t.file.totalBytes ∧ attempts ≤ t.config.retryLimit
  · have hmove : Keeps s (t.moveTo offset) := h.trans ⟨rfl, rfl, le_rfl⟩
    rw [beginOrResumeSource_of_le hle.1 hle.2]
    simp only
    split_ifs
    · exact (((hmove.queue _).setState _).queue _).sendEndOfFile _
    · exact ((hmove.queue _).setState _).requestSource _
  · have hbad : offset > t.file.totalBytes ∨ attempts > t.config.retryLimit := by omega
    obtain ⟨e, he⟩ := t.beginOrResumeSource_of_error hbad
    rw [he]
    exact h.fail _

theorem nextFile (h : Keeps s t) : Keeps s t.nextFile := by
  have hadvance : Keeps s t.advance := h.trans ⟨rfl, rfl, le_rfl⟩
  rw [nextFile_eq]
  split_ifs
  · exact hadvance.sendFinish _
  · exact hadvance.sendOffer _

theorem completeCurrentFile (h : Keeps s t) : Keeps s t.completeCurrentFile :=
  (((h.trans (u := t.countCompleted) ⟨rfl, rfl, le_rfl⟩).queue _).queue _).nextFile

theorem skipCurrentFile (h : Keeps s t) : Keeps s t.skipCurrentFile :=
  ((h.queue _).trans (u := (t.queue (.fileSkipped t.fileIndex)).countSkipped)
    ⟨rfl, rfl, le_rfl⟩).nextFile

theorem completeBatch (h : Keeps s t) : Keeps s t.completeBatch := by
  have hclose : Keeps s (t.queue (.write overAndOut)).closeWire :=
    (h.queue _).trans ⟨rfl, rfl, Nat.zero_le _⟩
  rw [completeBatch_eq]
  exact (hclose.queue _).setState _

theorem handleReceiverInit (h : Keeps s t) (header : Header) :
    Keeps s (t.handleReceiverInit header) := by
  unfold Sender.handleReceiverInit
  split_ifs
  · exact h.sendSenderInit _
  · exact h.sendOffer _
  · exact h.fail _

theorem handleHeader (h : Keeps s t) (decoded : DecodedHeader) :
    Keeps s (t.handleHeader decoded) := by
  unfold Sender.handleHeader
  simp only
  split_ifs
  · exact h.fail _
  · exact h.fail _
  split
  · split
    · exact (h.trans (u := { t with checksum := .crc16 }) ⟨rfl, rfl, le_rfl⟩).handleReceiverInit _
    · exact h.queue _
    · exact h
  · split
    · exact h.sendOffer _
    · exact h.retry h.sendSenderInit _
    · exact h.retry h.sendSenderInit _
    · exact h
  · split
    · exact h.beginOrResumeSource _ _
    · exact h.skipCurrentFile
    · exact h.retry h.sendOffer _
    · exact h.retry h.sendOffer _
    · exact h
  · split
    · exact h.beginOrResumeSource _ _
    · exact h
  · split
    · exact h.completeCurrentFile
    · exact h.beginOrResumeSource _ _
    · exact h.skipCurrentFile
    · exact h.retry h.sendEndOfFile _
    · exact h
  · split
    · exact h.completeBatch
    · exact h.retry h.sendFinish _
    · exact h.retry h.sendFinish _
    · exact h
  · exact h

end Keeps

theorem pumpHeader_shortens {t : Sender} (h : s.pumpHeader = (t, true)) :
    t.wire.input.length < s.wire.input.length := by
  unfold pumpHeader at h
  split at h
  · rename_i wire decoded hn
    obtain ⟨rfl, -⟩ := Prod.mk.inj h
    exact ((Keeps.refl { s with wire }).handleHeader decoded).input.trans_lt
      (WireDecoder.nextHeader_shortens hn)
  all_goals cases h

/-- **The loop over the headers takes all of them**: its fuel never runs out. -/
theorem pumpHeaders_next {t : Sender} (h : s.running = true) (hr : s.pumpHeader = (t, true)) :
    s.pumpHeaders = t.pumpHeaders :=
  loop_next (fun _ _ _ hr => pumpHeader_shortens hr) h hr

theorem pumpHeaders_last {t : Sender} (h : s.running = true) (hr : s.pumpHeader = (t, false)) :
    s.pumpHeaders = t :=
  loop_done h hr

theorem pumpHeaders_stop (h : s.running = false) : s.pumpHeaders = s :=
  loop_of_stop h

/-! ### Calls -/

def call (s : Sender) : SenderCall → Sender × Except Error Unit
  | .pushSerialBytes bytes => s.pushSerialBytes bytes
  | .provideSourceChunk bytes => s.provideSourceChunk bytes
  | .onTimeout => s.onTimeout
  | .cancel => s.cancel

def actor : Actor Sender SenderCall SenderAction Error where
  call := call
  actions := actions
  pop s := s.nextAction.1
  actions_pop _ := rfl

/-- The states in which a push handles its headers. -/
def pushRounds (s : Sender) (bytes : List UInt8) : List Sender :=
  match s.wire.push bytes with
  | (wire, .ok ()) => trips running pumpHeader (wire.input.length + 1) { s with wire }
  | (_, .error _) => []

theorem call_of_terminal (hs : s.state = .terminal) (c : SenderCall) : (s.call c).1 = s := by
  have ht : s.isTerminal = true := isTerminal_iff.mpr hs
  cases c with
  | pushSerialBytes bytes => simp [call, pushSerialBytes, ht]
  | provideSourceChunk bytes =>
      rw [call, provideSourceChunk_of_state fun a ha => by simp [hs] at ha]
  | onTimeout => simp [call, onTimeout, ht]
  | cancel => simp [call, cancel, ht]

end Sender

end Netcatty.Serial.Zmodem
