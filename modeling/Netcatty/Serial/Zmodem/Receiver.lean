import Netcatty.Serial.Zmodem.Sender

/-! # The ZMODEM receiver

The receiving state machine of `netcatty-serial`: it asks for files, leaves each offer to its
driver to accept or to skip, and hands the data of an accepted file to the driver one subpacket at
a time.  `written` counts the bytes the driver has confirmed.

A round of `pump` reads a header, a subpacket or the end of the batch, as the state asks for. -/

namespace Netcatty.Serial.Zmodem

inductive ReceiverAction where
  | write (bytes : List UInt8)
  | offerFile (fileIndex : ℕ) (metadata : FileMetadata)
  | beginFile (fileIndex : ℕ) (metadata : FileMetadata)
  | writeFile (fileIndex offset : ℕ) (bytes : List UInt8)
  | progress (progress : Progress)
  | fileCompleted (summary : FileSummary)
  | batchCompleted (summary : BatchSummary) (terminalBytes : List UInt8)
  | failed (error : Error)

inductive ReceiverState where
  | awaitHeader (attempts : ℕ)
  | awaitSenderInitData (checksum : Checksum) (attempts : ℕ)
  | awaitMetadata (checksum : Checksum) (attempts : ℕ)
  | awaitAcceptance
  | awaitDataHeader (attempts : ℕ)
  | awaitData (checksum : Checksum) (attempts : ℕ)
  | awaitSink (exactBytes : ℕ) (frameEnd : FrameEnd) (checksum : Checksum) (attempts : ℕ)
  | awaitEndOfFile (attempts : ℕ)
  | awaitOverAndOut (attempts : ℕ)
  | terminal
deriving DecidableEq, Repr

structure Receiver where
  config : Config
  wire : WireDecoder
  state : ReceiverState
  actions : List ReceiverAction
  current : Option FileMetadata
  fileIndex : ℕ
  written : ℕ
  completedFiles : ℕ
  skippedFiles : ℕ
  transferredBytes : ℕ
  advertisedTotalBytes : ℕ

namespace Receiver

def nextAction (r : Receiver) : Receiver × Option ReceiverAction :=
  ({ r with actions := r.actions.tail }, r.actions.head?)

def isTerminal (r : Receiver) : Bool := r.state == .terminal

/-! ### The action queue -/

def queueReceiverAction (r : Receiver) (action : ReceiverAction) : Receiver × Bool :=
  if r.actions.length ≥ maxPendingActions then
    ({ r with
        actions := [.failed (.actionQueueFull maxPendingActions)]
        state := .terminal }, false)
  else ({ r with actions := r.actions ++ [action] }, true)

/-- Queue an action whatever becomes of it. -/
def queue (r : Receiver) (action : ReceiverAction) : Receiver := (r.queueReceiverAction action).1

def setState (r : Receiver) (state : ReceiverState) : Receiver := { r with state }

def fail (r : Receiver) (error : Error) : Receiver := (r.queue (.failed error)).setState .terminal

/-! ### Sending -/

def sendReceiverInit (r : Receiver) (attempts : ℕ) : Receiver :=
  let flags := zrinitCanfdx ||| zrinitCanovio ||| zrinitCanfc32 ||| zrinitEscctl
  (r.queue (.write (encodeHexHeader ⟨.receiverInit, 0, 0, 0, flags⟩))).setState
    (.awaitHeader attempts)

def sendReceiverPosition (r : Receiver) (attempts : ℕ) : Receiver :=
  if r.written > maxFileBytes then r.fail (.fileTooLarge maxFileBytes)
  else
    (r.queue (.write (encodeHexHeader (.withOffset .receiverPosition r.written)))).setState
      (.awaitDataHeader attempts)

def sendFinish (r : Receiver) (attempts : ℕ) : Receiver :=
  (r.queue (.write (encodeHexHeader ⟨.finish, 0, 0, 0, 0⟩))).setState (.awaitOverAndOut attempts)

/-- Send once more, unless the attempts are used up. -/
def retry (error : Error) (send : Receiver → ℕ → Receiver) (r : Receiver) (attempts : ℕ) :
    Receiver :=
  if attempts ≥ r.config.retryLimit then r.fail error else send r (attempts + 1)

def retryReceiverInit : Receiver → ℕ → Receiver := retry .timedOut sendReceiverInit
def retryReceiverPosition : Receiver → ℕ → Receiver := retry .retryLimit sendReceiverPosition
def retryFinish : Receiver → ℕ → Receiver := retry .timedOut sendFinish

def new (config : Config) : Receiver :=
  sendReceiverInit
    { config
      wire := {}
      state := .awaitHeader 1
      actions := []
      current := none
      fileIndex := 0
      written := 0
      completedFiles := 0
      skippedFiles := 0
      transferredBytes := 0
      advertisedTotalBytes := 0 } 1

/-! ### Headers and subpackets -/

def currentFileCountHintFrom (r : Receiver) (metadata : FileMetadata) : ℕ :=
  match metadata.filesRemaining with
  | some remaining => saturatingAdd r.fileIndex remaining
  | none => 0

def currentFileCountHint (r : Receiver) : ℕ :=
  match r.current with
  | some metadata => r.currentFileCountHintFrom metadata
  | none => 0

def recoverCorruptInput (r : Receiver) : Receiver :=
  let r := { r with wire := r.wire.reset }
  match r.state with
  | .awaitDataHeader attempts | .awaitData _ attempts | .awaitEndOfFile attempts =>
    r.retryReceiverPosition attempts
  | .awaitHeader attempts | .awaitSenderInitData _ attempts | .awaitMetadata _ attempts =>
    retry .retryLimit sendReceiverInit r attempts
  | _ => r.fail .crcMismatch

def handleEndOfFile (r : Receiver) (offset : ℕ) : Receiver :=
  match r.current with
  | none => r.fail .invalidState
  | some metadata =>
    if offset ≠ r.written ∨ r.written ≠ metadata.totalBytes then r.retryReceiverPosition 1
    else
      let r := { r with
        current := none
        completedFiles := r.completedFiles + 1
        transferredBytes := saturatingAdd r.transferredBytes r.written }
      let r := r.queue (.progress {
        fileIndex := r.fileIndex
        fileCount := r.currentFileCountHintFrom metadata
        transferredBytes := r.written
        totalBytes := metadata.totalBytes
        stage := .complete })
      let r := r.queue (.fileCompleted ⟨r.fileIndex, metadata.totalBytes, r.written⟩)
      { r with fileIndex := r.fileIndex + 1, written := 0 }.sendReceiverInit 1

def completeBatch (r : Receiver) : Receiver :=
  let (wire, terminalBytes) := r.wire.takeSuccessRemainder
  let r := { r with wire }
  let r := r.queue (.batchCompleted {
    fileCount := r.fileIndex
    completedFiles := r.completedFiles
    skippedFiles := r.skippedFiles
    totalBytes := r.advertisedTotalBytes
    transferredBytes := r.transferredBytes } terminalBytes)
  r.setState .terminal

def handleReceiverHeader (r : Receiver) (decoded : DecodedHeader) : Receiver :=
  let header := decoded.header
  if header.frameType = .abort ∨ header.frameType = .fileError then r.fail .remoteAborted
  else
    match r.state with
    | .awaitHeader attempts =>
      match header.frameType with
      | .requestInit => r.sendReceiverInit attempts
      | .senderInit => r.setState (.awaitSenderInitData decoded.checksum attempts)
      | .file => r.setState (.awaitMetadata decoded.checksum attempts)
      | .finish => r.sendFinish 1
      | .challenge =>
        r.queue (.write (encodeHexHeader ⟨.ack, header.p₀, header.p₁, header.p₂, header.p₃⟩))
      | _ => r.setState (.awaitHeader attempts)
    | .awaitDataHeader attempts =>
      match header.frameType with
      | .data =>
        if header.offset = r.written then r.setState (.awaitData decoded.checksum attempts)
        else r.retryReceiverPosition attempts
      | .endOfFile => r.handleEndOfFile header.offset
      | _ => r.setState (.awaitDataHeader attempts)
    | .awaitEndOfFile attempts =>
      match header.frameType with
      | .endOfFile => r.handleEndOfFile header.offset
      | .data =>
        if header.offset = r.written then r.setState (.awaitData decoded.checksum attempts)
        else r.setState (.awaitEndOfFile attempts)
      | _ => r.setState (.awaitEndOfFile attempts)
    | _ => r.fail .unexpectedFrame

def handleReceiverSubpacket (r : Receiver) (packet : Subpacket) (checksum : Checksum) :
    Receiver :=
  match r.state with
  | .awaitSenderInitData _ attempts =>
    let r :=
      if packet.frameEnd.expectsAck then r.queue (.write (encodeHexHeader ⟨.ack, 0, 0, 0, 0⟩))
      else r
    r.setState (.awaitHeader attempts)
  | .awaitMetadata _ _ =>
    if ¬ packet.frameEnd.endsFrame then r.fail .invalidMetadata
    else
      match parseFileMetadata packet.payload with
      | .error e => r.fail e
      | .ok metadata =>
        if r.fileIndex ≥ maxBatchFiles then r.fail (.invalidBatch maxBatchFiles)
        else
          let r := { r with
            advertisedTotalBytes := saturatingAdd r.advertisedTotalBytes metadata.totalBytes
            current := some metadata }
          (r.queue (.offerFile r.fileIndex metadata)).setState .awaitAcceptance
  | .awaitData _ attempts =>
    match r.current with
    | none => r.fail .invalidState
    | some metadata =>
      if saturatingAdd r.written packet.payload.length > metadata.totalBytes then
        r.fail .incompleteFile
      else
        (r.queue (.writeFile r.fileIndex r.written packet.payload)).setState
          (.awaitSink packet.payload.length packet.frameEnd checksum attempts)
  | _ => r.fail .unexpectedFrame

/-! ### The pump

A round gives the receiver back with whether it took something off the buffer. -/

def pumpHeader (r : Receiver) : Receiver × Bool :=
  match r.wire.nextHeader with
  | (wire, .ok (some decoded)) => ({ r with wire }.handleReceiverHeader decoded, true)
  | (wire, .ok none) => ({ r with wire }, false)
  | (wire, .error .remoteCancelled) => ({ r with wire }.fail .remoteCancelled, false)
  | (wire, .error .crcMismatch) => ({ r with wire }.recoverCorruptInput, false)
  | (wire, .error .invalidHeader) => ({ r with wire }.recoverCorruptInput, false)
  | (wire, .error e) => ({ r with wire }.fail e, false)

def pumpSubpacket (r : Receiver) (checksum : Checksum) : Receiver × Bool :=
  match r.wire.nextSubpacket checksum with
  | (wire, .ok (some packet)) => ({ r with wire }.handleReceiverSubpacket packet checksum, true)
  | (wire, .ok none) => ({ r with wire }, false)
  | (wire, .error .crcMismatch) => ({ r with wire }.recoverCorruptInput, false)
  | (wire, .error .invalidEscape) => ({ r with wire }.recoverCorruptInput, false)
  | (wire, .error .remoteCancelled) => ({ r with wire }.fail .remoteCancelled, false)
  | (wire, .error e) => ({ r with wire }.fail e, false)

def pumpOverAndOut (r : Receiver) : Receiver × Bool :=
  match r.wire.nextOverAndOut with
  | (wire, .ok true) => ({ r with wire }.completeBatch, true)
  | (wire, .ok false) => ({ r with wire }, false)
  | (wire, .error e) => ({ r with wire }.fail e, false)

def pumpRound (r : Receiver) : Receiver × Bool :=
  match r.state with
  | .awaitHeader _ | .awaitDataHeader _ | .awaitEndOfFile _ => r.pumpHeader
  | .awaitSenderInitData checksum _ | .awaitMetadata checksum _ | .awaitData checksum _ =>
    r.pumpSubpacket checksum
  | .awaitOverAndOut _ => r.pumpOverAndOut
  | .awaitAcceptance | .awaitSink _ _ _ _ | .terminal => (r, false)

/-- The loop goes on. -/
def running (r : Receiver) : Bool :=
  !r.isTerminal && decide (r.actions.length < maxPendingActions)

/-- Every round that asks for another one has taken bytes off the buffer. -/
def pump (r : Receiver) : Receiver := Loop.loop running pumpRound (r.wire.input.length + 1) r

/-! ### Entry points -/

def pushSerialBytes (r : Receiver) (bytes : List UInt8) : Receiver × Except Error Unit :=
  if r.isTerminal then (r, .error .invalidState)
  else
    match r.wire.push bytes with
    | (wire, .error e) => ({ r with wire }, .error e)
    | (wire, .ok ()) => ({ r with wire }.pump, .ok ())

/-- Begin the file that has been offered, before the pump goes on. -/
def beginFile (r : Receiver) (metadata : FileMetadata) : Receiver :=
  let r := { r with written := 0 }
  let r := r.queue (.beginFile r.fileIndex metadata)
  let r := r.queue (.progress {
    fileIndex := r.fileIndex
    fileCount := metadata.filesRemaining.getD 0
    transferredBytes := 0
    totalBytes := metadata.totalBytes
    stage := .header })
  r.sendReceiverPosition 1

def acceptFile (r : Receiver) : Receiver × Except Error Unit :=
  match r.state, r.current with
  | .awaitAcceptance, some metadata => ((r.beginFile metadata).pump, .ok ())
  | _, _ => (r, .error .invalidState)

/-- Drop the file that has been offered, before the pump goes on. -/
def dropFile (r : Receiver) : Receiver :=
  let r := r.queue (.write (encodeHexHeader ⟨.skip, 0, 0, 0, 0⟩))
  { r with
    current := none
    skippedFiles := r.skippedFiles + 1
    fileIndex := r.fileIndex + 1 }.sendReceiverInit 1

def skipFile (r : Receiver) : Receiver × Except Error Unit :=
  match r.state with
  | .awaitAcceptance => (r.dropFile.pump, .ok ())
  | _ => (r, .error .invalidState)

/-- Report the bytes the driver has confirmed, before the pump goes on. -/
def reportWrite (r : Receiver) (metadata : FileMetadata) (frameEnd : FrameEnd)
    (checksum : Checksum) (attempts : ℕ) : Receiver :=
  let r := r.queue (.progress {
    fileIndex := r.fileIndex
    fileCount := r.currentFileCountHint
    transferredBytes := r.written
    totalBytes := metadata.totalBytes
    stage := if frameEnd.endsFrame then .finalizing else .data })
  let r :=
    if frameEnd.expectsAck then
      r.queue (.write (encodeHexHeader (.withOffset .ack (min r.written maxFileBytes))))
    else r
  r.setState (if frameEnd.endsFrame then .awaitEndOfFile attempts else .awaitData checksum attempts)

def confirmFileWrite (r : Receiver) (writtenBytes : ℕ) : Receiver × Except Error Unit :=
  match r.state with
  | .awaitSink exactBytes frameEnd checksum attempts =>
    if writtenBytes ≠ exactBytes then
      (r.fail (.sinkLengthMismatch exactBytes writtenBytes),
        .error (.sinkLengthMismatch exactBytes writtenBytes))
    else
      let r := { r with written := r.written + writtenBytes }
      match r.current with
      | none => (r, .error .invalidState)
      | some metadata =>
        if r.written > metadata.totalBytes then (r.fail .incompleteFile, .ok ())
        else ((r.reportWrite metadata frameEnd checksum attempts).pump, .ok ())
  | _ => (r, .error .invalidState)

def onTimeout (r : Receiver) : Receiver × Except Error Unit :=
  if r.isTerminal then (r, .error .invalidState)
  else
    let r := { r with wire := r.wire.reset }
    match r.state with
    | .awaitHeader attempts => (r.retryReceiverInit attempts, .ok ())
    | .awaitSenderInitData _ attempts | .awaitMetadata _ attempts =>
      (if attempts ≥ r.config.retryLimit then r.fail .retryLimit
        else (r.queue (.write (encodeHexHeader ⟨.nak, 0, 0, 0, 0⟩))).setState
          (.awaitHeader (attempts + 1)), .ok ())
    | .awaitDataHeader attempts | .awaitData _ attempts | .awaitEndOfFile attempts =>
      (r.retryReceiverPosition attempts, .ok ())
    | .awaitOverAndOut attempts => (r.retryFinish attempts, .ok ())
    | .awaitAcceptance | .awaitSink _ _ _ _ => (r, .error .invalidState)
    | .terminal => (r, .error .invalidState)

def cancel (r : Receiver) : Receiver × Except Error Unit :=
  if r.isTerminal then (r, .error .invalidState)
  else ((r.queue (.write cancelSequence)).fail .cancelled, .ok ())

end Receiver

end Netcatty.Serial.Zmodem
