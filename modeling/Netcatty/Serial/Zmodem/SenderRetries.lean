import Netcatty.Serial.Zmodem.SenderSteps
import Netcatty.Serial.Zmodem.Written

/-! # What the sender sends again

`resends` counts the headers of one kind in the sender's log, and `leftIn` is how many more the
attempts in its state allow for the current file.  No step adds to their sum (`Within`), unless the
receiver asks for a position again after the end of the file: the attempts for that were lost when
the end of the file was announced (`Sender.Steady`). -/

namespace Netcatty.Serial.Zmodem

open Netcatty.Driver Netcatty.Loop Netcatty.Runs

/-! ### Headers that are sent again -/

/-- What a sender repeats: its initialisation, the offer of a file, the start of its data, the end of
the file, the end of the batch. -/
inductive Resend where
  | senderInit
  | offer
  | start
  | endOfFile
  | finish
deriving DecidableEq, Repr

def Resend.frameType : Resend → FrameType
  | senderInit => .senderInit
  | offer => .file
  | start => .data
  | endOfFile => .endOfFile
  | finish => .finish

def SenderAction.isResend (k : Resend) : SenderAction → Bool
  | .write bytes => writtenType bytes == some k.frameType
  | _ => false

/-- How many headers of one kind the actions write. -/
def resends (k : Resend) (actions : List SenderAction) : ℕ := actions.countP (·.isResend k)

theorem resends_append (k : Resend) (as bs : List SenderAction) :
    resends k (as ++ bs) = resends k as + resends k bs := List.countP_append

namespace Sender

/-! ### The attempts left -/

/-- How many headers of a kind a state allows before the next file. -/
def leftIn (k : Resend) (limit : ℕ) : SenderState → ℕ
  | .awaitReceiverInit _ =>
    match k with
    | .finish => 0
    | _ => limit
  | .awaitSenderInitAck attempts =>
    match k with
    | .senderInit => limit - attempts
    | .finish => 0
    | _ => limit
  | .awaitOfferResponse attempts =>
    match k with
    | .offer => limit - attempts
    | .start => limit + 1 - attempts
    | .endOfFile => limit
    | _ => 0
  | .awaitSource attempts =>
    match k with
    | .start => limit - attempts
    | .endOfFile => limit
    | _ => 0
  | .awaitReceiverInitAfterFile attempts =>
    match k with
    | .endOfFile => limit - attempts
    | _ => 0
  | .awaitFinish attempts =>
    match k with
    | .finish => limit - attempts
    | _ => 0
  | .terminal => 0

/-- The offer under way counts as an attempt. -/
def Attempted : SenderState → Prop
  | .awaitOfferResponse attempts => 1 ≤ attempts
  | _ => True

/-- The sender has reached no file before the `i`-th, and as long as it is at the `i`-th it has sent
no more headers of a kind than `bound`, with those its attempts still allow; `spent` of them have
left the queue. -/
structure Within (k : Resend) (i limit spent bound : ℕ) (s : Sender) : Prop where
  limit_eq : s.config.retryLimit = limit
  checksum : s.checksum = .crc16
  attempted : Attempted s.state
  le : i ≤ s.fileIndex
  bounded : s.fileIndex = i →
    spent + resends k s.actions + leftIn k limit s.state ≤ bound

variable {s : Sender} {k : Resend} {i limit spent bound : ℕ}

/-- An action in the queue, or the failure in its place. -/
theorem resends_queue_le (k : Resend) (s : Sender) (a : SenderAction) :
    resends k (s.queue a).actions ≤ resends k s.actions + if a.isResend k then 1 else 0 := by
  by_cases hroom : s.Room 1
  · rw [queue_of_room hroom, append_actions, resends_append]
    simp [resends, List.countP_cons]
  · have hfull : (s.queue a).actions = [.failed (.actionQueueFull maxPendingActions)] := by
      rw [queue, queueSenderAction_of_full hroom]
    rw [hfull]
    simp [resends, SenderAction.isResend]

theorem resends_queue_of_not {a : SenderAction} (ha : a.isResend k = false) :
    resends k (s.queue a).actions ≤ resends k s.actions := by
  have := resends_queue_le k s a
  rw [ha] at this
  simpa using this

theorem state_queue (s : Sender) (a : SenderAction) :
    (s.queue a).state = s.state ∨ (s.queue a).state = .terminal := by
  by_cases hroom : s.Room 1
  · exact .inl (by rw [queue_of_room hroom, append_state])
  · exact .inr (by rw [queue, queueSenderAction_of_full hroom])

theorem resends_fail_le (k : Resend) (s : Sender) (e : Error) :
    resends k (s.fail e).actions ≤ resends k s.actions := resends_queue_of_not rfl

/-- One more header of the kind `j`. -/
def one (j k : Resend) : ℕ := if j = k then 1 else 0

theorem isResend_hexHeader (h : Header) (k : Resend) :
    (SenderAction.write (encodeHexHeader h)).isResend k = (h.frameType == k.frameType) := by
  simp [SenderAction.isResend]

theorem isResend_subpacket {payload : List UInt8} (h : payload.length ≤ maxSubpacketBytes)
    (frameEnd : FrameEnd) (esc : Bool) (k : Resend) :
    (SenderAction.write (subpacketBytes payload frameEnd .crc16 esc)).isResend k = false := by
  simp [SenderAction.isResend, writtenType_subpacket h]

theorem if_frameType (j k : Resend) :
    (if (j.frameType == k.frameType) = true then 1 else 0) = one j k := by
  cases j <;> cases k <;> rfl

/-- What a function that sends a header of the kind `j` and goes to the state `st` does. -/
structure Sends (s : Sender) (j : Resend) (st : SenderState) (t : Sender) : Prop where
  config : t.config = s.config
  fileIndex : t.fileIndex = s.fileIndex
  checksum : t.checksum = s.checksum
  state : t.state = .terminal ∨ t.state = st
  resends : ∀ k, resends k t.actions ≤ resends k s.actions + one j k

theorem Sends.of_queue {a : SenderAction} {j : Resend} {st : SenderState} {t : Sender}
    (h : Sends (s.queue a) j st t) (ha : ∀ k, a.isResend k = false) : Sends s j st t :=
  ⟨h.config.trans (by simp), h.fileIndex.trans (by simp), h.checksum.trans (by simp), h.state,
    fun k => (h.resends k).trans (Nat.add_le_add_right (resends_queue_of_not (ha k)) _)⟩

theorem sends_sendFinish (s : Sender) (attempts : ℕ) :
    Sends s .finish (.awaitFinish attempts) (s.sendFinish attempts) := by
  refine ⟨by simp [sendFinish], by simp [sendFinish], by simp [sendFinish], .inr rfl, fun k => ?_⟩
  have := resends_queue_le k s (.write (encodeHexHeader ⟨.finish, 0, 0, 0, 0⟩))
  rwa [isResend_hexHeader, show (⟨.finish, 0, 0, 0, 0⟩ : Header).frameType = Resend.finish.frameType
    from rfl, if_frameType] at this

theorem sends_sendEndOfFile (s : Sender) (attempts : ℕ) :
    Sends s .endOfFile (.awaitReceiverInitAfterFile attempts) (s.sendEndOfFile attempts) := by
  refine ⟨by simp [sendEndOfFile], by simp [sendEndOfFile], by simp [sendEndOfFile], .inr rfl,
    fun k => ?_⟩
  have := resends_queue_le k s (.write (encodeHexHeader (.withOffset .endOfFile s.offset)))
  rwa [isResend_hexHeader, show (Header.withOffset .endOfFile s.offset).frameType =
    Resend.endOfFile.frameType from rfl, if_frameType] at this

theorem sends_sendSenderInit (s : Sender) (attempts : ℕ) :
    Sends s .senderInit (.awaitSenderInitAck attempts) (s.sendSenderInit attempts) := by
  have hp : ([0] : List UInt8).length ≤ maxSubpacketBytes := by decide
  have hsend : s.sendSenderInit attempts =
      ((s.queue (.write (encodeHexHeader ⟨.senderInit, 0, 0, 0, zrinitEscctl⟩))).queue
        (.write (subpacketBytes [0] .endAck .crc16 s.escapes))).setState
          (.awaitSenderInitAck attempts) := by
    simp [sendSenderInit, encodeSubpacket_of_le hp]
  rw [hsend]
  refine ⟨by simp, by simp, by simp, .inr rfl, fun k => ?_⟩
  have h₁ := resends_queue_le k s
    (.write (encodeHexHeader ⟨.senderInit, 0, 0, 0, zrinitEscctl⟩))
  rw [isResend_hexHeader, show (⟨.senderInit, 0, 0, 0, zrinitEscctl⟩ : Header).frameType =
    Resend.senderInit.frameType from rfl, if_frameType] at h₁
  exact (resends_queue_of_not (isResend_subpacket hp _ _ k)).trans h₁

theorem sends_sendOffer (hc : s.checksum = .crc16) (attempts : ℕ) :
    Sends s .offer (.awaitOfferResponse attempts) (s.sendOffer attempts) := by
  cases hm : s.offerMetadata with
  | error e =>
      rw [sendOffer_of_error hm]
      exact ⟨by simp, by simp, by simp, .inl rfl,
        fun k => (resends_fail_le k s e).trans (Nat.le_add_right _ _)⟩
  | ok metadata =>
      have hlen := offerMetadata_length hm
      have hsend : s.sendOffer attempts =
          (((s.queue (.write (encodeBinaryHeader ⟨.file, 0, 0, 0, 1⟩ .crc16 s.escapes))).queue
            (.write (subpacketBytes metadata .endAck .crc16 s.escapes))).queue (.progress {
              fileIndex := s.fileIndex
              fileCount := s.files.length
              transferredBytes := 0
              totalBytes := s.file.totalBytes
              stage := .header })).setState (.awaitOfferResponse attempts) := by
        unfold offerMetadata at hm
        simp only [sendOffer, hm]
        simp only [queue_checksum, queue_escapes, hc, encodeSubpacket_of_le hlen, queue_fileIndex,
          queue_files, queue_file]
      rw [hsend]
      refine ⟨by simp, by simp, by simp, .inr rfl, fun k => ?_⟩
      have h₁ := resends_queue_le k s
        (.write (encodeBinaryHeader ⟨.file, 0, 0, 0, 1⟩ .crc16 s.escapes))
      have hkind : (SenderAction.write (encodeBinaryHeader ⟨.file, 0, 0, 0, 1⟩ .crc16
          s.escapes)).isResend k = (Resend.offer.frameType == k.frameType) := by
        simp [SenderAction.isResend, Resend.frameType]
      rw [hkind, if_frameType] at h₁
      exact ((resends_queue_of_not rfl).trans
        (resends_queue_of_not (isResend_subpacket hlen _ _ k))).trans h₁

/-- What a step sends comes out of the attempts. -/
theorem Within.step {t : Sender} (h : Within k i limit spent bound s) (hconfig : t.config = s.config)
    (hindex : t.fileIndex = s.fileIndex) (hchecksum : t.checksum = s.checksum)
    (hattempted : Attempted t.state)
    (hcount : resends k t.actions + leftIn k s.config.retryLimit t.state ≤
      resends k s.actions + leftIn k s.config.retryLimit s.state) :
    Within k i limit spent bound t := by
  obtain ⟨rfl, hc, -, hle, hbounded⟩ := h
  refine ⟨by rw [hconfig], hchecksum.trans hc, hattempted, by rwa [hindex], fun hi => ?_⟩
  have hb := hbounded (hindex.symm.trans hi)
  omega

/-- A header that the attempts allow. -/
theorem Within.sends (h : Within k i limit spent bound s) {j : Resend} {st : SenderState} {t : Sender}
    (hsends : Sends s j st t) (hst : Attempted st)
    (hleft : one j k + leftIn k s.config.retryLimit st ≤ leftIn k s.config.retryLimit s.state) :
    Within k i limit spent bound t := by
  have hcount := hsends.resends k
  rcases hsends.state with hs | hs
  · refine h.step hsends.config hsends.fileIndex hsends.checksum (by rw [hs]; trivial) ?_
    rw [hs, leftIn]
    omega
  · refine h.step hsends.config hsends.fileIndex hsends.checksum (by rwa [hs]) ?_
    rw [hs]
    omega

theorem Within.fail (h : Within k i limit spent bound s) (e : Error) :
    Within k i limit spent bound (s.fail e) := by
  have hcount := resends_fail_le k s e
  refine h.step (by simp) (by simp) (by simp) trivial ?_
  rw [fail_state, leftIn]
  omega

theorem Within.queue (h : Within k i limit spent bound s) {a : SenderAction} (ha : a.isResend k = false) :
    Within k i limit spent bound (s.queue a) := by
  have hcount := resends_queue_of_not (s := s) ha
  rcases state_queue s a with hs | hs
  · exact h.step (by simp) (by simp) (by simp) (by rw [hs]; exact h.attempted) (by rw [hs]; omega)
  · refine h.step (by simp) (by simp) (by simp) (by rw [hs]; trivial) ?_
    rw [hs, leftIn]
    omega

/-- A later file is another matter. -/
theorem within_of_lt (hlimit : s.config.retryLimit = limit) (hc : s.checksum = .crc16)
    (ha : Attempted s.state) (h : i < s.fileIndex) : Within k i limit spent bound s :=
  ⟨hlimit, hc, ha, h.le, fun hi => absurd hi (by omega)⟩

theorem Within.retry (h : Within k i limit spent bound s) {j : Resend} {st : ℕ → SenderState}
    {send : Sender → ℕ → Sender} (hsends : ∀ n, Sends s j (st n) (send s n))
    (hst : ∀ n, 1 ≤ n → Attempted (st n)) {attempts : ℕ}
    (hleft : attempts < s.config.retryLimit → one j k + leftIn k s.config.retryLimit
      (st (attempts + 1)) ≤ leftIn k s.config.retryLimit s.state) :
    Within k i limit spent bound (Sender.retry send s attempts) := by
  unfold Sender.retry
  split_ifs with hlimit
  · exact h.fail _
  · exact h.sends (hsends _) (hst _ (by omega)) (hleft (by omega))

theorem Within.retrySenderInit (h : Within k i limit spent bound s) {attempts : ℕ}
    (hs : s.state = .awaitSenderInitAck attempts) :
    Within k i limit spent bound (s.retrySenderInit attempts) := by
  refine h.retry (sends_sendSenderInit s) (fun _ _ => trivial)
    fun hlt => ?_
  rw [hs]
  cases k <;> simp [one, leftIn]
  omega

theorem Within.retryOffer (h : Within k i limit spent bound s) {attempts : ℕ}
    (hs : s.state = .awaitOfferResponse attempts) :
    Within k i limit spent bound (s.retryOffer attempts) := by
  refine h.retry (sends_sendOffer h.checksum) (fun _ hn => hn)
    fun hlt => ?_
  rw [hs]
  cases k <;> simp [one, leftIn] <;> omega

theorem Within.retryEndOfFile (h : Within k i limit spent bound s) {attempts : ℕ}
    (hs : s.state = .awaitReceiverInitAfterFile attempts) :
    Within k i limit spent bound (s.retryEndOfFile attempts) := by
  refine h.retry (sends_sendEndOfFile s) (fun _ _ => trivial)
    fun hlt => ?_
  rw [hs]
  cases k <;> simp [one, leftIn]
  omega

theorem Within.retryFinish (h : Within k i limit spent bound s) {attempts : ℕ}
    (hs : s.state = .awaitFinish attempts) :
    Within k i limit spent bound (s.retryFinish attempts) := by
  refine h.retry (sends_sendFinish s) (fun _ _ => trivial) fun hlt => ?_
  rw [hs]
  cases k <;> simp [one, leftIn]
  omega

/-! ### The source -/

theorem sends_requestSource_le (s : Sender) (attempts : ℕ) (k : Resend) :
    resends k (s.requestSource attempts).actions ≤ resends k s.actions :=
  resends_queue_of_not rfl

theorem Within.requestSource (h : Within k i limit spent bound s) {t : Sender} {attempts : ℕ}
    (hs : s.state = .awaitSource attempts) (hconfig : t.config = s.config)
    (hindex : t.fileIndex = s.fileIndex) (hchecksum : t.checksum = s.checksum)
    (hcount : resends k t.actions ≤ resends k s.actions) :
    Within k i limit spent bound (t.requestSource attempts) := by
  have hle := sends_requestSource_le t attempts k
  refine h.step (by simpa [Sender.requestSource] using hconfig)
    (by simpa [Sender.requestSource] using hindex)
    (by simpa [Sender.requestSource] using hchecksum) trivial ?_
  rw [hs, show (t.requestSource attempts).state = .awaitSource attempts from rfl]
  omega

/-- The start of the data, and the end of the file or the request for its source. -/
theorem Within.beginOrResumeSource (h : Within k i limit spent bound s) {offset attempts : ℕ}
    (hleft : offset ≤ s.file.totalBytes → attempts ≤ s.config.retryLimit →
      one .start k + leftIn k s.config.retryLimit (.awaitSource attempts) ≤
        leftIn k s.config.retryLimit s.state) :
    Within k i limit spent bound (s.beginOrResumeSource offset attempts) := by
  by_cases hle : offset ≤ s.file.totalBytes ∧ attempts ≤ s.config.retryLimit
  · rw [beginOrResumeSource_of_le hle.1 hle.2]
    have hstart : Sends s .start (.awaitSource attempts) (((s.moveTo offset).queue
        (.write (encodeBinaryHeader (.withOffset .data offset) s.checksum s.escapes))).setState
          (.awaitSource attempts)) := by
      refine ⟨by simp, by simp, by simp, .inr rfl, fun k => ?_⟩
      have := resends_queue_le k (s.moveTo offset)
        (.write (encodeBinaryHeader (.withOffset .data offset) s.checksum s.escapes))
      rw [h.checksum] at this ⊢
      have hkind : (SenderAction.write (encodeBinaryHeader (.withOffset .data offset) .crc16
          s.escapes)).isResend k = (Resend.start.frameType == k.frameType) := by
        simp [SenderAction.isResend, Resend.frameType, Header.withOffset]
      rwa [hkind, if_frameType] at this
    have ht := h.sends hstart trivial (hleft hle.1 hle.2)
    simp only
    split_ifs
    · have hp : ∀ k, (SenderAction.write (subpacketBytes [] .endNoAck s.checksum
          s.escapes)).isResend k = false := by
        rw [h.checksum]
        exact isResend_subpacket (by decide) _ _
      have hpos := s.config.retryLimit_pos
      refine ht.sends ((sends_sendEndOfFile _ 1).of_queue hp) trivial ?_
      cases k <;> simp [one, leftIn]
      omega
    · exact ht.requestSource rfl rfl rfl rfl le_rfl
  · have hbad : offset > s.file.totalBytes ∨ attempts > s.config.retryLimit := by omega
    obtain ⟨e, he⟩ := s.beginOrResumeSource_of_error hbad
    rw [he]
    exact h.fail _

/-! ### The next file -/

theorem within_nextFile (hlimit : s.config.retryLimit = limit) (hc : s.checksum = .crc16)
    (hi : i ≤ s.fileIndex) : Within k i limit spent bound s.nextFile := by
  have key : ∀ (j : Resend) (st : SenderState) (t : Sender), Attempted st →
      Sends s.advance j st t → Within k i limit spent bound t := by
    intro j st t hst h
    refine within_of_lt (by rw [h.config]; exact hlimit) (h.checksum.trans hc) ?_ ?_
    · rcases h.state with hs | hs
      · rw [hs]
        trivial
      · rwa [hs]
    · rw [h.fileIndex]
      exact Nat.lt_succ_of_le hi
  rw [nextFile_eq]
  split_ifs
  · exact key .finish (.awaitFinish 1) _ trivial (sends_sendFinish _ 1)
  · exact key .offer (.awaitOfferResponse 1) _ le_rfl (sends_sendOffer (s := s.advance) hc 1)

theorem Within.completeCurrentFile (h : Within k i limit spent bound s) :
    Within k i limit spent bound s.completeCurrentFile := by
  rw [completeCurrentFile_eq]
  refine within_nextFile ?_ ?_ ?_
  · rw [queue_config, queue_config]
    exact h.limit_eq
  · rw [queue_checksum, queue_checksum]
    exact h.checksum
  · rw [queue_fileIndex, queue_fileIndex]
    exact h.le

theorem Within.skipCurrentFile (h : Within k i limit spent bound s) :
    Within k i limit spent bound s.skipCurrentFile := by
  refine within_nextFile (s := (s.queue (.fileSkipped s.fileIndex)).countSkipped) ?_ ?_ ?_
  · exact (congrArg Config.retryLimit (queue_config _ _)).trans h.limit_eq
  · exact (queue_checksum _ _).trans h.checksum
  · exact h.le.trans (queue_fileIndex _ _).ge

theorem Within.completeBatch (h : Within k i limit spent bound s) :
    Within k i limit spent bound s.completeBatch := by
  rw [completeBatch_eq]
  have h₁ : resends k (s.queue (.write overAndOut)).actions ≤ resends k s.actions :=
    resends_queue_of_not (by simp [SenderAction.isResend, writtenType_overAndOut])
  have h₂ : resends k ((s.queue (.write overAndOut)).closeWire.queue (.batchCompleted
      (s.queue (.write overAndOut)).batchSummary s.wire.input)).actions ≤
        resends k (s.queue (.write overAndOut)).actions :=
    resends_queue_of_not (s := (s.queue (.write overAndOut)).closeWire) rfl
  refine h.step (by simp [closeWire]) (by simp [closeWire]) (by simp [closeWire]) trivial ?_
  rw [setState_state, setState_actions, leftIn]
  omega

/-! ### Headers -/

theorem Within.handleReceiverInit (h : Within k i limit spent bound s) {attempts : ℕ}
    (hs : s.state = .awaitReceiverInit attempts) (header : Header) :
    Within k i limit spent bound (s.handleReceiverInit header) := by
  have hpos := s.config.retryLimit_pos
  unfold Sender.handleReceiverInit
  split_ifs
  · refine h.sends (sends_sendSenderInit s 1) trivial ?_
    rw [hs]
    cases k <;> simp [one, leftIn]
    omega
  · refine h.sends (sends_sendOffer h.checksum 1) le_rfl ?_
    rw [hs]
    cases k <;> simp [one, leftIn]
    omega
  · exact h.fail _

/-- A receiver that has been told of the end of a file does not ask for a part of it again. -/
def Steady (s : Sender) (decoded : DecodedHeader) : Prop :=
  decoded.header.frameType = .receiverPosition → decoded.header.offset ≤ s.file.totalBytes →
    ∀ attempts, s.state ≠ .awaitReceiverInitAfterFile attempts

theorem Within.handleHeader (h : Within k i limit spent bound s) {decoded : DecodedHeader}
    (hsteady : s.Steady decoded) : Within k i limit spent bound (s.handleHeader decoded) := by
  have hpos := s.config.retryLimit_pos
  unfold Sender.handleHeader
  simp only
  split_ifs
  · exact h.fail _
  · exact h.fail _
  split
  · rename_i attempts hs
    have hs' : ({ s with checksum := .crc16 } : Sender) = s := by
      rw [← h.checksum]
    split
    · rw [hs']
      exact h.handleReceiverInit hs _
    · exact h.queue (by rw [isResend_hexHeader]; cases k <;> rfl)
    · exact h
  · rename_i attempts hs
    split
    · refine h.sends (sends_sendOffer h.checksum 1) le_rfl ?_
      rw [hs]
      cases k <;> simp [one, leftIn]
      omega
    · exact h.retrySenderInit hs
    · exact h.retrySenderInit hs
    · exact h
  · rename_i attempts hs
    split
    · refine h.beginOrResumeSource fun _ hle => ?_
      rw [hs]
      cases k <;> simp [one, leftIn]
      omega
    · exact h.skipCurrentFile
    · exact h.retryOffer hs
    · exact h.retryOffer hs
    · exact h
  · rename_i attempts hs
    split
    · refine h.beginOrResumeSource fun _ hle => ?_
      rw [hs]
      cases k <;> simp [one, leftIn]
      omega
    · exact h
  · rename_i attempts hs
    split
    · exact h.completeCurrentFile
    · rename_i hf
      exact h.beginOrResumeSource fun ho => absurd hs (hsteady hf ho attempts)
    · exact h.skipCurrentFile
    · exact h.retryEndOfFile hs
    · exact h
  · rename_i attempts hs
    split
    · exact h.completeBatch
    · exact h.retryFinish hs
    · exact h.retryFinish hs
    · exact h
  · exact h

/-! ### Calls -/

theorem Within.withWire (h : Within k i limit spent bound s) (wire : WireDecoder) :
    Within k i limit spent bound { s with wire } :=
  ⟨h.limit_eq, h.checksum, h.attempted, h.le, h.bounded⟩

/-- The header that the sender handles next. -/
def nextDecoded (s : Sender) : Option DecodedHeader :=
  match s.wire.nextHeader with
  | (_, .ok decoded) => decoded
  | _ => none

theorem Within.pumpHeader (h : Within k i limit spent bound s)
    (hsteady : ∀ decoded, s.nextDecoded = some decoded → s.Steady decoded) :
    Within k i limit spent bound s.pumpHeader.1 := by
  unfold Sender.pumpHeader
  split
  · rename_i wire decoded hn
    exact (h.withWire wire).handleHeader (hsteady decoded (by simp [nextDecoded, hn]))
  · exact h.withWire _
  · exact (h.withWire _).fail _
  · exact h.withWire _
  · exact h.withWire _
  · exact (h.withWire _).fail _

theorem Within.pushSerialBytes (h : Within k i limit spent bound s) {bytes : List UInt8}
    (hsteady : ∀ t ∈ s.pushRounds bytes, ∀ decoded, t.nextDecoded = some decoded →
      t.Steady decoded) :
    Within k i limit spent bound (s.pushSerialBytes bytes).1 := by
  unfold Sender.pushSerialBytes
  split
  · exact h
  split
  · exact h.withWire _
  · rename_i wire hp
    unfold pushRounds at hsteady
    simp only [hp] at hsteady
    exact loop_invariant (fun t ht _ hw => hw.pumpHeader (hsteady t ht)) (h.withWire wire)

theorem resends_chunkActions (hc : s.checksum = .crc16) (finalChunk : Bool)
    {chunks : List (List UInt8)} (hlen : ∀ chunk ∈ chunks, chunk.length ≤ maxSubpacketBytes) :
    resends k (s.chunkActions finalChunk chunks) = 0 := by
  induction chunks with
  | nil => rfl
  | cons chunk rest ih =>
      have hrest := ih fun c hm => hlen c (by simp [hm])
      have hchunk := isResend_subpacket (hlen chunk (by simp))
        (if finalChunk && rest.isEmpty then .endNoAck else .continueNoAck) s.escapes k
      rw [← hc] at hchunk
      unfold resends at hrest ⊢
      rw [chunkActions, List.countP_cons_of_neg (by rw [hchunk]; decide), hrest]

theorem Within.provideSourceChunk (h : Within k i limit spent bound s) (bytes : List UInt8) :
    Within k i limit spent bound (s.provideSourceChunk bytes).1 := by
  by_cases hst : ∃ attempts, s.state = .awaitSource attempts
  · obtain ⟨attempts, hs⟩ := hst
    by_cases hacc : s.AcceptsChunk bytes
    · by_cases hroom : s.Room (chunkPayloads bytes).length
      · rw [provideSourceChunk_of_accepts hs hacc,
          writeChunks_of_room (length_chunkPayloads_le bytes) hroom]
        have ht : Within k i limit spent bound ((s.append (s.chunkActions (s.isFinalChunk bytes)
            (chunkPayloads bytes))).moveTo (s.offset + bytes.length)) := by
          refine h.step rfl rfl rfl h.attempted ?_
          have hnone := resends_chunkActions (k := k) h.checksum
            (s.isFinalChunk bytes) (length_chunkPayloads_le bytes)
          rw [moveTo_actions, append_actions, resends_append, hnone]
          exact le_rfl
        simp only
        split_ifs
        · have hpos := s.config.retryLimit_pos
          refine ht.sends ((sends_sendEndOfFile _ 1).of_queue fun _ => rfl) trivial ?_
          rw [moveTo_state, append_state, hs]
          cases k <;> simp [one, leftIn]
          omega
        · exact ht.requestSource hs (queue_config _ _) (queue_fileIndex _ _) (queue_checksum _ _)
            (resends_queue_of_not rfl)
      · rw [provideSourceChunk_of_full hs hacc hroom]
        refine h.step rfl rfl rfl trivial ?_
        simp [resends, SenderAction.isResend, leftIn]
    · obtain ⟨e, he⟩ := provideSourceChunk_of_refused hacc
      rwa [he]
  · rwa [provideSourceChunk_of_state fun a ha => hst ⟨a, ha⟩]

theorem Within.onTimeout (h : Within k i limit spent bound s) :
    Within k i limit spent bound s.onTimeout.1 := by
  have hreset := h.withWire s.wire.reset
  unfold Sender.onTimeout
  split
  · exact h
  simp only
  split
  · rename_i attempts hs
    split_ifs
    · exact hreset.fail _
    · refine hreset.step rfl rfl rfl trivial ?_
      rw [hs]
      cases k <;> simp [leftIn, setState]
  · exact hreset.retryOffer ‹_›
  · exact hreset.retrySenderInit ‹_›
  · exact hreset.retryEndOfFile ‹_›
  · exact hreset.retryFinish ‹_›
  · exact hreset
  · exact hreset

theorem Within.cancel (h : Within k i limit spent bound s) : Within k i limit spent bound s.cancel.1 := by
  unfold Sender.cancel
  split
  · exact h
  · exact (h.queue (by simp [SenderAction.isResend, writtenType_cancelSequence])).fail _

/-- The headers of a push are handled in a steady sender. -/
def StaysSteady (s : Sender) : Move SenderCall → Prop
  | .call (.pushSerialBytes bytes) =>
    ∀ t ∈ s.pushRounds bytes, ∀ decoded, t.nextDecoded = some decoded → t.Steady decoded
  | _ => True

theorem Within.call (h : Within k i limit spent bound s) {c : SenderCall}
    (hsteady : s.StaysSteady (.call c)) : Within k i limit spent bound (s.call c).1 := by
  cases c with
  | pushSerialBytes bytes => exact h.pushSerialBytes hsteady
  | provideSourceChunk bytes => exact h.provideSourceChunk bytes
  | onTimeout => exact h.onTimeout
  | cancel => exact h.cancel

/-! ### Runs -/

end Sender

end Netcatty.Serial.Zmodem
