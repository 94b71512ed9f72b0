import Netcatty.Library.Loop
import Netcatty.Serial.Zmodem.Metadata
import Netcatty.Serial.Zmodem.Wire

/-! # The ZMODEM sender

The sending state machine of `netcatty-serial`: it offers the files of a batch one after another,
asks its driver for source bytes, and queues what the driver is to do.  A queue that is full makes
room for nothing but the failure that ends the transfer (`queueSenderAction`).

The functions that index `files[file_index]` read the file through `Sender.file`; the index passes
the last file only where no file is left to send. -/

namespace Netcatty.Serial.Zmodem

/-! ### Configuration -/

/-- The timeout is in nanoseconds. -/
structure Config where
  timeout : ℕ
  retryLimit : ℕ
  chunkBytes : ℕ
  escapeControlBytes : Bool
  timeout_pos : 0 < timeout
  retryLimit_pos : 0 < retryLimit
  retryLimit_le : retryLimit ≤ maxRetryLimit
  chunkBytes_pos : 0 < chunkBytes
  chunkBytes_le : chunkBytes ≤ maxSubpacketBytes

namespace Config

def new (timeout retryLimit chunkBytes : ℕ) (escapeControlBytes : Bool) : Except Error Config :=
  if h₁ : timeout = 0 then .error .invalidTimeout
  else if h₂ : retryLimit = 0 ∨ retryLimit > maxRetryLimit then
    .error (.invalidRetryLimit maxRetryLimit)
  else if h₃ : chunkBytes = 0 ∨ chunkBytes > maxSubpacketBytes then
    .error (.invalidChunkSize maxSubpacketBytes)
  else
    .ok ⟨timeout, retryLimit, chunkBytes, escapeControlBytes, by omega, by omega, by omega,
      by omega, by omega⟩

/-- One minute, ten attempts and chunks of 64 KiB, with control bytes escaped. -/
def default : Config :=
  ⟨60 * 10 ^ 9, 10, 64 * 1024, true, by decide, by decide, by decide, by decide, by decide⟩

end Config

/-! ### Actions -/

inductive ProgressStage where
  | header
  | data
  | finalizing
  | complete
deriving DecidableEq, Repr

structure Progress where
  fileIndex : ℕ
  fileCount : ℕ
  transferredBytes : ℕ
  totalBytes : ℕ
  stage : ProgressStage
deriving DecidableEq, Repr

structure FileSummary where
  fileIndex : ℕ
  totalBytes : ℕ
  transferredBytes : ℕ
deriving DecidableEq, Repr

structure BatchSummary where
  fileCount : ℕ
  completedFiles : ℕ
  skippedFiles : ℕ
  totalBytes : ℕ
  transferredBytes : ℕ
deriving DecidableEq, Repr

inductive SenderAction where
  | write (bytes : List UInt8)
  | readSource (fileIndex offset maximumBytes : ℕ)
  | progress (progress : Progress)
  | fileCompleted (summary : FileSummary)
  | fileSkipped (fileIndex : ℕ)
  | batchCompleted (summary : BatchSummary) (terminalBytes : List UInt8)
  | failed (error : Error)
deriving DecidableEq, Repr

inductive SenderState where
  | awaitReceiverInit (attempts : ℕ)
  | awaitSenderInitAck (attempts : ℕ)
  | awaitOfferResponse (attempts : ℕ)
  | awaitSource (attempts : ℕ)
  | awaitReceiverInitAfterFile (attempts : ℕ)
  | awaitFinish (attempts : ℕ)
  | terminal
deriving DecidableEq, Repr

structure Sender where
  config : Config
  files : List FileMetadata
  wire : WireDecoder
  state : SenderState
  actions : List SenderAction
  fileIndex : ℕ
  offset : ℕ
  checksum : Checksum
  completedFiles : ℕ
  skippedFiles : ℕ
  transferredBytes : ℕ
  batchTotalBytes : ℕ

def saturatingAdd (a b : ℕ) : ℕ := min (a + b) maxU64

def zrinitCanfdx : UInt8 := 0x01
def zrinitCanovio : UInt8 := 0x02
def zrinitCanfc32 : UInt8 := 0x20
def zrinitEscctl : UInt8 := 0x40

namespace Sender

def new (files : List FileMetadata) (config : Config) : Except Error Sender :=
  if files.isEmpty ∨ files.length > maxBatchFiles then .error (.invalidBatch maxBatchFiles)
  else if (files.map (·.totalBytes)).sum > maxU64 then .error .batchSizeOverflow
  else
    .ok {
      config
      files
      wire := {}
      state := .awaitReceiverInit 1
      actions := []
      fileIndex := 0
      offset := 0
      checksum := .crc16
      completedFiles := 0
      skippedFiles := 0
      transferredBytes := 0
      batchTotalBytes := (files.map (·.totalBytes)).sum }

def nextAction (s : Sender) : Sender × Option SenderAction :=
  ({ s with actions := s.actions.tail }, s.actions.head?)

def isTerminal (s : Sender) : Bool := s.state == .terminal

/-- The current file, `files[file_index]`. -/
def file (s : Sender) : FileMetadata :=
  s.files.getD s.fileIndex
    { fileName := fallbackName
      totalBytes := 0
      modifiedTime := 0
      mode := 0
      filesRemaining := none
      bytesRemaining := none
      fileName_clean := cleanName_fallbackName
      fileName_le := length_encodeUtf8_fallbackName
      totalBytes_le := zero_le_maxFileBytes }

/-! ### The action queue -/

def queueSenderAction (s : Sender) (action : SenderAction) : Sender × Bool :=
  if s.actions.length ≥ maxPendingActions then
    ({ s with
        actions := [.failed (.actionQueueFull maxPendingActions)]
        state := .terminal }, false)
  else ({ s with actions := s.actions ++ [action] }, true)

/-- Queue an action whatever becomes of it. -/
def queue (s : Sender) (action : SenderAction) : Sender := (s.queueSenderAction action).1

def setState (s : Sender) (state : SenderState) : Sender := { s with state }

def fail (s : Sender) (error : Error) : Sender := (s.queue (.failed error)).setState .terminal

/-! ### Sending -/

def escapes (s : Sender) : Bool := s.config.escapeControlBytes

def sendOffer (s : Sender) (attempts : ℕ) : Sender :=
  let filesRemaining := s.files.length - s.fileIndex
  let bytesRemaining := ((s.files.drop s.fileIndex).map (·.totalBytes)).sum
  match encodeFileMetadata s.file filesRemaining bytesRemaining with
  | .error e => s.fail e
  | .ok metadata =>
    let s := s.queue (.write (encodeBinaryHeader ⟨.file, 0, 0, 0, 1⟩ s.checksum s.escapes))
    match encodeSubpacket metadata .endAck s.checksum s.escapes with
    | .error e => s.fail e
    | .ok packet =>
      let s := s.queue (.write packet)
      let s := s.queue (.progress {
        fileIndex := s.fileIndex
        fileCount := s.files.length
        transferredBytes := 0
        totalBytes := s.file.totalBytes
        stage := .header })
      s.setState (.awaitOfferResponse attempts)

def sendSenderInit (s : Sender) (attempts : ℕ) : Sender :=
  let s := s.queue (.write (encodeHexHeader ⟨.senderInit, 0, 0, 0, zrinitEscctl⟩))
  match encodeSubpacket [0] .endAck .crc16 s.escapes with
  | .error e => s.fail e
  | .ok packet => (s.queue (.write packet)).setState (.awaitSenderInitAck attempts)

def sendEndOfFile (s : Sender) (attempts : ℕ) : Sender :=
  (s.queue (.write (encodeHexHeader (.withOffset .endOfFile s.offset)))).setState
    (.awaitReceiverInitAfterFile attempts)

def sendFinish (s : Sender) (attempts : ℕ) : Sender :=
  (s.queue (.write (encodeHexHeader ⟨.finish, 0, 0, 0, 0⟩))).setState (.awaitFinish attempts)

/-- Send once more, unless the attempts are used up. -/
def retry (send : Sender → ℕ → Sender) (s : Sender) (attempts : ℕ) : Sender :=
  if attempts ≥ s.config.retryLimit then s.fail .retryLimit else send s (attempts + 1)

def retrySenderInit : Sender → ℕ → Sender := retry sendSenderInit
def retryOffer : Sender → ℕ → Sender := retry sendOffer
def retryEndOfFile : Sender → ℕ → Sender := retry sendEndOfFile
def retryFinish : Sender → ℕ → Sender := retry sendFinish

/-- How many bytes the driver may provide now. -/
def sourceMaximum (s : Sender) : ℕ :=
  min (s.file.totalBytes - s.offset) s.config.chunkBytes

def requestSource (s : Sender) (attempts : ℕ) : Sender :=
  (s.queue (.readSource s.fileIndex s.offset s.sourceMaximum)).setState (.awaitSource attempts)

def beginOrResumeSource (s : Sender) (offset attempts : ℕ) : Sender :=
  if offset > s.file.totalBytes then s.fail .sourceLengthMismatch
  else if attempts > s.config.retryLimit then s.fail .retryLimit
  else
    let s := { s with offset }
    let s := s.queue (.write
      (encodeBinaryHeader (.withOffset .data offset) s.checksum s.escapes))
    let s := s.setState (.awaitSource attempts)
    if s.offset = s.file.totalBytes then
      match encodeSubpacket [] .endNoAck s.checksum s.escapes with
      | .error e => s.fail e
      | .ok packet => (s.queue (.write packet)).sendEndOfFile 1
    else s.requestSource attempts

/-- Go on with the next file, or end the batch. -/
def nextFile (s : Sender) : Sender :=
  let s := { s with fileIndex := s.fileIndex + 1, offset := 0 }
  if s.fileIndex = s.files.length then s.sendFinish 1 else s.sendOffer 1

def completeCurrentFile (s : Sender) : Sender :=
  let totalBytes := s.file.totalBytes
  let s := { s with
    completedFiles := s.completedFiles + 1
    transferredBytes := saturatingAdd s.transferredBytes totalBytes }
  let s := s.queue (.progress {
    fileIndex := s.fileIndex
    fileCount := s.files.length
    transferredBytes := totalBytes
    totalBytes
    stage := .complete })
  let s := s.queue (.fileCompleted ⟨s.fileIndex, totalBytes, totalBytes⟩)
  s.nextFile

def skipCurrentFile (s : Sender) : Sender :=
  let s := s.queue (.fileSkipped s.fileIndex)
  { s with skippedFiles := s.skippedFiles + 1 }.nextFile

def completeBatch (s : Sender) : Sender :=
  let s := s.queue (.write overAndOut)
  let (wire, terminalBytes) := s.wire.takeSuccessRemainder
  let s := { s with wire }
  let s := s.queue (.batchCompleted {
    fileCount := s.files.length
    completedFiles := s.completedFiles
    skippedFiles := s.skippedFiles
    totalBytes := s.batchTotalBytes
    transferredBytes := s.transferredBytes } terminalBytes)
  s.setState .terminal

/-! ### Headers -/

/-- The receiver can take data in full duplex, without windows. -/
def hasRequiredCapabilities (header : Header) : Bool :=
  header.p₃ &&& zrinitCanfdx ≠ 0 ∧ header.p₃ &&& zrinitCanovio ≠ 0 ∧ header.p₃ &&& 0x80 = 0 ∧
    header.p₀ = 0 ∧ header.p₁ = 0

def handleReceiverInit (s : Sender) (header : Header) : Sender :=
  if ¬ hasRequiredCapabilities header then s.fail .unsupportedPeerCapabilities
  else if header.p₃ &&& zrinitEscctl = 0 then s.sendSenderInit 1
  else s.sendOffer 1

def handleHeader (s : Sender) (decoded : DecodedHeader) : Sender :=
  let header := decoded.header
  if header.frameType = .abort ∨ header.frameType = .fileError then s.fail .remoteAborted
  else if header.frameType = .cancel then s.fail .remoteCancelled
  else
    match s.state with
    | .awaitReceiverInit _ =>
      match header.frameType with
      | .receiverInit => { s with checksum := .crc16 }.handleReceiverInit header
      | .challenge =>
        s.queue (.write (encodeHexHeader ⟨.ack, header.p₀, header.p₁, header.p₂, header.p₃⟩))
      | _ => s
    | .awaitSenderInitAck attempts =>
      match header.frameType with
      | .ack => s.sendOffer 1
      | .receiverInit | .nak => s.retrySenderInit attempts
      | _ => s
    | .awaitOfferResponse attempts =>
      match header.frameType with
      | .receiverPosition => s.beginOrResumeSource header.offset attempts
      | .skip => s.skipCurrentFile
      | .receiverInit | .nak => s.retryOffer attempts
      | _ => s
    | .awaitSource attempts =>
      match header.frameType with
      | .receiverPosition => s.beginOrResumeSource header.offset (attempts + 1)
      | _ => s
    | .awaitReceiverInitAfterFile attempts =>
      match header.frameType with
      | .receiverInit => s.completeCurrentFile
      | .receiverPosition => s.beginOrResumeSource header.offset attempts
      | .skip => s.skipCurrentFile
      | .nak => s.retryEndOfFile attempts
      | _ => s
    | .awaitFinish attempts =>
      match header.frameType with
      | .finish => s.completeBatch
      | .receiverInit | .nak => s.retryFinish attempts
      | _ => s
    | .terminal => s

/-- A round of the loop over the headers in the buffer, and whether another one follows. -/
def pumpHeader (s : Sender) : Sender × Bool :=
  match s.wire.nextHeader with
  | (wire, .ok (some decoded)) => ({ s with wire }.handleHeader decoded, true)
  | (wire, .ok none) => ({ s with wire }, false)
  | (wire, .error .remoteCancelled) => ({ s with wire }.fail .remoteCancelled, false)
  | (wire, .error .crcMismatch) => ({ s with wire }, false)
  | (wire, .error .invalidHeader) => ({ s with wire }, false)
  | (wire, .error e) => ({ s with wire }.fail e, false)

/-- The loop goes on. -/
def running (s : Sender) : Bool :=
  !s.isTerminal && decide (s.actions.length < maxPendingActions)

/-- Every round that asks for another one has taken a header off the buffer. -/
def pumpHeaders (s : Sender) : Sender := Loop.loop running pumpHeader (s.wire.input.length + 1) s

/-! ### Entry points -/

def pushSerialBytes (s : Sender) (bytes : List UInt8) : Sender × Except Error Unit :=
  if s.isTerminal then (s, .error .invalidState)
  else
    match s.wire.push bytes with
    | (wire, .error e) => ({ s with wire }, .error e)
    | (wire, .ok ()) => ({ s with wire }.pumpHeaders, .ok ())

/-- The pieces of a source chunk that go out in a subpacket each. -/
def wireChunks (bytes : List UInt8) : List (List UInt8) :=
  (List.range ((bytes.length + wireSubpacketBytes - 1) / wireSubpacketBytes)).map fun i =>
    (bytes.drop (i * wireSubpacketBytes)).take wireSubpacketBytes

/-- The payloads a source chunk goes out in; an empty one goes out too. -/
def chunkPayloads (bytes : List UInt8) : List (List UInt8) :=
  if bytes.isEmpty then [[]] else wireChunks bytes

/-- Queue the subpackets of a source chunk, until the queue is full. -/
def writeChunks (finalChunk : Bool) : List (List UInt8) → Sender → Sender × Except Error Bool
  | [], s => (s, .ok true)
  | chunk :: rest, s =>
    let frameEnd : FrameEnd :=
      if finalChunk && rest.isEmpty then .endNoAck else .continueNoAck
    match encodeSubpacket chunk frameEnd s.checksum s.escapes with
    | .error e => (s, .error e)
    | .ok packet =>
      match s.queueSenderAction (.write packet) with
      | (s, false) => (s, .ok false)
      | (s, true) => writeChunks finalChunk rest s

def provideSourceChunk (s : Sender) (bytes : List UInt8) : Sender × Except Error Unit :=
  match s.state with
  | .awaitSource sourceAttempts =>
    let totalBytes := s.file.totalBytes
    if s.offset > totalBytes then (s, .error .sourceLengthMismatch)
    else
      let remaining := totalBytes - s.offset
      if bytes.length > s.sourceMaximum ∨ (bytes.isEmpty ∧ remaining > 0) then
        (s, .error (.invalidSourceChunk s.sourceMaximum bytes.length))
      else
        let finalChunk := decide (bytes.length = remaining)
        match writeChunks finalChunk (chunkPayloads bytes) s with
        | (s, .error e) => (s, .error e)
        | (s, .ok false) => (s, .ok ())
        | (s, .ok true) =>
          let s := { s with offset := s.offset + bytes.length }
          let s := s.queue (.progress {
            fileIndex := s.fileIndex
            fileCount := s.files.length
            transferredBytes := s.offset
            totalBytes
            stage := if finalChunk then .finalizing else .data })
          (if finalChunk then s.sendEndOfFile 1 else s.requestSource sourceAttempts, .ok ())
  | _ => (s, .error .invalidState)

def onTimeout (s : Sender) : Sender × Except Error Unit :=
  if s.isTerminal then (s, .error .invalidState)
  else
    let s := { s with wire := s.wire.reset }
    match s.state with
    | .awaitReceiverInit attempts =>
      (if attempts ≥ s.config.retryLimit then s.fail .timedOut
        else s.setState (.awaitReceiverInit (attempts + 1)), .ok ())
    | .awaitOfferResponse attempts => (s.retryOffer attempts, .ok ())
    | .awaitSenderInitAck attempts => (s.retrySenderInit attempts, .ok ())
    | .awaitReceiverInitAfterFile attempts => (s.retryEndOfFile attempts, .ok ())
    | .awaitFinish attempts => (s.retryFinish attempts, .ok ())
    | .awaitSource _ => (s, .error .invalidState)
    | .terminal => (s, .error .invalidState)

def cancel (s : Sender) : Sender × Except Error Unit :=
  if s.isTerminal then (s, .error .invalidState)
  else ((s.queue (.write cancelSequence)).fail .cancelled, .ok ())

end Sender

end Netcatty.Serial.Zmodem
