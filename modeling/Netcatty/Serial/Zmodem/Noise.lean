import Mathlib.Logic.Relation
import Netcatty.Serial.Zmodem.Failure
import Netcatty.Serial.Zmodem.Longer

/-! # Noise before a header

The sender stops at the first header that is damaged, with what comes after it left in the buffer,
until more bytes arrive or the next timeout drops them.  No header is left there unless the buffer
holds one after a damaged one (`header_left_iff`). -/

set_option maxRecDepth 8000

namespace Netcatty.Serial.Zmodem

open Relation (ReflTransGen)

/-! ### The buffer -/

namespace Sender

/-- The sender with another buffer. -/
def withWire (s : Sender) (wire : WireDecoder) : Sender := { s with wire }

section Handlers

variable (s : Sender) (w : WireDecoder)

@[simp] theorem withWire_files : (s.withWire w).files = s.files := rfl
@[simp] theorem withWire_fileIndex : (s.withWire w).fileIndex = s.fileIndex := rfl
@[simp] theorem withWire_file : (s.withWire w).file = s.file := rfl
@[simp] theorem withWire_offset : (s.withWire w).offset = s.offset := rfl
@[simp] theorem withWire_checksum : (s.withWire w).checksum = s.checksum := rfl
@[simp] theorem withWire_escapes : (s.withWire w).escapes = s.escapes := rfl
@[simp] theorem withWire_config : (s.withWire w).config = s.config := rfl
@[simp] theorem withWire_state : (s.withWire w).state = s.state := rfl
@[simp] theorem withWire_wire : (s.withWire w).wire = w := rfl
@[simp] theorem withWire_withWire (w' : WireDecoder) :
    (s.withWire w).withWire w' = s.withWire w' := rfl

@[simp] theorem queue_withWire (a : SenderAction) :
    (s.withWire w).queue a = (s.queue a).withWire w := by
  unfold queue queueSenderAction withWire
  simp only
  split_ifs <;> rfl

@[simp] theorem setState_withWire (st : SenderState) :
    (s.withWire w).setState st = (s.setState st).withWire w := rfl

@[simp] theorem fail_withWire (e : Error) : (s.withWire w).fail e = (s.fail e).withWire w := by
  simp [fail]

@[simp] theorem sendOffer_withWire (attempts : ℕ) :
    (s.withWire w).sendOffer attempts = (s.sendOffer attempts).withWire w := by
  simp only [sendOffer, withWire_files, withWire_fileIndex, withWire_file, withWire_checksum,
    withWire_escapes, queue_withWire, fail_withWire, setState_withWire]
  split
  · rfl
  · split <;> rfl

@[simp] theorem sendSenderInit_withWire (attempts : ℕ) :
    (s.withWire w).sendSenderInit attempts = (s.sendSenderInit attempts).withWire w := by
  simp only [sendSenderInit, queue_withWire, withWire_escapes, fail_withWire, setState_withWire]
  split <;> rfl

@[simp] theorem sendEndOfFile_withWire (attempts : ℕ) :
    (s.withWire w).sendEndOfFile attempts = (s.sendEndOfFile attempts).withWire w := by
  simp [sendEndOfFile]

@[simp] theorem sendFinish_withWire (attempts : ℕ) :
    (s.withWire w).sendFinish attempts = (s.sendFinish attempts).withWire w := by
  simp [sendFinish]

theorem retry_withWire {send : Sender → ℕ → Sender}
    (h : ∀ n, send (s.withWire w) n = (send s n).withWire w) (attempts : ℕ) :
    retry send (s.withWire w) attempts = (retry send s attempts).withWire w := by
  simp only [retry, withWire_config, fail_withWire, h]
  split_ifs <;> rfl

@[simp] theorem requestSource_withWire (attempts : ℕ) :
    (s.withWire w).requestSource attempts = (s.requestSource attempts).withWire w := by
  have hmaximum : (s.withWire w).sourceMaximum = s.sourceMaximum := rfl
  simp [requestSource, hmaximum]

@[simp] theorem beginOrResumeSource_withWire (offset attempts : ℕ) :
    (s.withWire w).beginOrResumeSource offset attempts =
      (s.beginOrResumeSource offset attempts).withWire w := by
  by_cases h₁ : offset > s.file.totalBytes
  · simp [beginOrResumeSource, h₁]
  by_cases h₂ : attempts > s.config.retryLimit
  · simp [beginOrResumeSource, h₁, h₂]
  · have hmove : (s.withWire w).moveTo offset = (s.moveTo offset).withWire w := rfl
    have ho : offset ≤ s.file.totalBytes := Nat.not_lt.mp h₁
    have ha : attempts ≤ s.config.retryLimit := Nat.not_lt.mp h₂
    have hwith : offset ≤ (s.withWire w).file.totalBytes := ho
    rw [beginOrResumeSource_of_le hwith ha, beginOrResumeSource_of_le ho ha, hmove]
    simp only [withWire_checksum, withWire_escapes, withWire_file, queue_withWire,
      setState_withWire, sendEndOfFile_withWire, requestSource_withWire]
    split_ifs <;> rfl

@[simp] theorem nextFile_withWire : (s.withWire w).nextFile = s.nextFile.withWire w := by
  have hadvance : (s.withWire w).advance = s.advance.withWire w := rfl
  rw [nextFile_eq, nextFile_eq, hadvance, sendFinish_withWire, sendOffer_withWire]
  by_cases hlast : s.fileIndex + 1 = s.files.length
  · exact (if_pos hlast).trans (congrArg (fun t : Sender => t.withWire w) (if_pos hlast).symm)
  · exact (if_neg hlast).trans (congrArg (fun t : Sender => t.withWire w) (if_neg hlast).symm)

@[simp] theorem completeCurrentFile_withWire :
    (s.withWire w).completeCurrentFile = s.completeCurrentFile.withWire w := by
  have hcount : (s.withWire w).countCompleted = s.countCompleted.withWire w := rfl
  rw [completeCurrentFile_eq, completeCurrentFile_eq, hcount]
  simp

@[simp] theorem skipCurrentFile_withWire :
    (s.withWire w).skipCurrentFile = s.skipCurrentFile.withWire w := by
  have hcount : ∀ t : Sender, { t.withWire w with skippedFiles := t.skippedFiles + 1 } =
      ({ t with skippedFiles := t.skippedFiles + 1 } : Sender).withWire w := fun _ => rfl
  unfold skipCurrentFile
  rw [withWire_fileIndex, queue_withWire]
  exact (congrArg nextFile (hcount _)).trans (nextFile_withWire _ _)

@[simp] theorem handleReceiverInit_withWire (header : Header) :
    (s.withWire w).handleReceiverInit header = (s.handleReceiverInit header).withWire w := by
  simp only [handleReceiverInit, fail_withWire, sendSenderInit_withWire, sendOffer_withWire]
  split_ifs <;> rfl

end Handlers

/-- The header that ends the batch. -/
def Finishes (s : Sender) (decoded : DecodedHeader) : Prop :=
  (∃ attempts, s.state = .awaitFinish attempts) ∧ decoded.header.frameType = .finish

/-- The buffer is left alone, except at the end of the batch. -/
theorem handleHeader_withWire {s : Sender} {decoded : DecodedHeader} (h : ¬ s.Finishes decoded)
    (w : WireDecoder) :
    (s.withWire w).handleHeader decoded = (s.handleHeader decoded).withWire w := by
  unfold handleHeader
  simp only [withWire_state, fail_withWire]
  split_ifs
  · rfl
  · rfl
  cases hstate : s.state with
  | awaitReceiverInit attempts =>
      simp only
      split
      · exact handleReceiverInit_withWire
          { s with state := .awaitReceiverInit attempts, checksum := .crc16 } w decoded.header
      · exact queue_withWire s w _
      · rfl
  | awaitSenderInitAck attempts =>
      simp only
      split
      · exact sendOffer_withWire s w _
      · exact retry_withWire s w (sendSenderInit_withWire s w) _
      · exact retry_withWire s w (sendSenderInit_withWire s w) _
      · rfl
  | awaitOfferResponse attempts =>
      simp only
      split
      · exact beginOrResumeSource_withWire s w _ _
      · exact skipCurrentFile_withWire s w
      · exact retry_withWire s w (sendOffer_withWire s w) _
      · exact retry_withWire s w (sendOffer_withWire s w) _
      · rfl
  | awaitSource attempts =>
      simp only
      split
      · exact beginOrResumeSource_withWire s w _ _
      · rfl
  | awaitReceiverInitAfterFile attempts =>
      simp only
      split
      · exact completeCurrentFile_withWire s w
      · exact beginOrResumeSource_withWire s w _ _
      · exact skipCurrentFile_withWire s w
      · exact retry_withWire s w (sendEndOfFile_withWire s w) _
      · rfl
  | awaitFinish attempts =>
      simp only
      split
      · rename_i hfinish
        exact absurd ⟨⟨attempts, hstate⟩, hfinish⟩ h
      · exact retry_withWire s w (sendFinish_withWire s w) _
      · exact retry_withWire s w (sendFinish_withWire s w) _
      · rfl
  | terminal => rfl

/-- A header leaves the buffer as it was taken off, unless the transfer ends. -/
theorem handleHeader_wire {s : Sender} {decoded : DecodedHeader}
    (h : (s.handleHeader decoded).state ≠ .terminal) : (s.handleHeader decoded).wire = s.wire := by
  by_cases hfinishes : s.Finishes decoded
  · obtain ⟨⟨attempts, hstate⟩, hfinish⟩ := hfinishes
    have hcomplete : s.handleHeader decoded = s.completeBatch := by
      unfold handleHeader
      simp only [hfinish, hstate]
      rfl
    exact absurd (by rw [hcomplete]; rfl) h
  · have hwith : s.handleHeader decoded = (s.handleHeader decoded).withWire s.wire :=
      handleHeader_withWire hfinishes s.wire
    rw [hwith, withWire_wire]

end Sender

/-! ### Headers and noise -/

namespace WireDecoder

/-- A header is taken off the buffer. -/
def StepHeader (d d' : WireDecoder) : Prop := ∃ header, d.nextHeader = (d', .ok (some header))

/-- A header is damaged. -/
def StepNoise (d d' : WireDecoder) : Prop :=
  d.nextHeader = (d', .error .crcMismatch) ∨ d.nextHeader = (d', .error .invalidHeader)

def StepError (d d' : WireDecoder) : Prop := ∃ error, d.nextHeader = (d', .error error)

/-- A header that `nextHeader` still returns, past what is wrong before it. -/
def HeaderAhead (d : WireDecoder) : Prop := ∃ d₁ d₂, ReflTransGen StepError d d₁ ∧ StepHeader d₁ d₂

/-- Behind the headers at its head, the buffer has a damaged one with another header after it. -/
def Hides (d : WireDecoder) : Prop :=
  ∃ d₁ d₂, ReflTransGen StepHeader d d₁ ∧ StepNoise d₁ d₂ ∧ HeaderAhead d₂

theorem headerAhead_of_nextHeader {d : WireDecoder} {header : DecodedHeader}
    (h : d.nextHeader.2 = .ok (some header)) : d.HeaderAhead :=
  ⟨d, d.nextHeader.1, .refl, header, Prod.ext rfl h⟩

theorem StepHeader.unique {d d₁ d₂ : WireDecoder} (h₁ : StepHeader d d₁) (h₂ : StepHeader d d₂) :
    d₁ = d₂ := by
  obtain ⟨x, hx⟩ := h₁
  obtain ⟨y, hy⟩ := h₂
  exact congrArg Prod.fst (hx.symm.trans hy)

/-- The headers at the head of the buffer end at one place. -/
theorem headers_unique {d d₁ d₂ : WireDecoder} (h₁ : ReflTransGen StepHeader d d₁)
    (h₂ : ReflTransGen StepHeader d d₂) (hstop₁ : ∀ d', ¬ StepHeader d₁ d')
    (hstop₂ : ∀ d', ¬ StepHeader d₂ d') : d₁ = d₂ := by
  induction h₁ using ReflTransGen.head_induction_on with
  | refl =>
      rcases h₂.cases_head with heq | ⟨next, hnext, -⟩
      · exact heq
      · exact absurd hnext (hstop₁ next)
  | head hstep _ ih =>
      rcases h₂.cases_head with heq | ⟨next, hnext, hrest⟩
      · exact absurd (heq ▸ hstep) (hstop₂ _)
      · exact ih (hstep.unique hnext ▸ hrest)

/-- Without a candidate nothing is retained. -/
theorem retainPossibleHeaderPrefix_of_none {input : List UInt8}
    (h : findHeaderCandidate input = none) : retainPossibleHeaderPrefix input = [] := by
  have hnone : ((List.range' 1 (min input.length (hexHeaderPrefix.length - 1))).reverse.find?
      fun length => isPartialHeaderPrefix (input.drop (input.length - length))) = none := by
    rw [List.find?_eq_none]
    intro length hmem
    rw [List.mem_reverse, List.mem_range'_1] at hmem
    have hcandidate := findHeaderCandidate_none h (input.length - length) (by omega)
    rw [isHeaderCandidate, Bool.or_eq_false_iff] at hcandidate
    simp [hcandidate.2]
  simp [retainPossibleHeaderPrefix, hnone]

/-- A buffer that asks for more bytes has no header. -/
theorem nextHeader_none {d d' : WireDecoder} (h : d.nextHeader = (d', .ok none)) :
    d'.nextHeader = (d', .ok none) := by
  unfold nextHeader at h
  split_ifs at h with hcancelled
  · cases h
  · rw [Bool.not_eq_true] at hcancelled
    split at h
    · rename_i hnone
      obtain ⟨rfl, -⟩ := Prod.mk.inj h
      have hclean := cancelled_drop hcancelled d.input.length
      rw [retainPossibleHeaderPrefix_of_none hnone]
      rw [List.drop_length] at hclean
      unfold nextHeader
      rw [if_neg (by simp [hclean])]
      rfl
    · rename_i candidate hsome
      obtain ⟨-, hlt, hat⟩ := findHeaderCandidate_some hsome
      simp only at h
      split at h
      · cases h
      · rename_i hparse
        obtain ⟨rfl, -⟩ := Prod.mk.inj h
        have hclean := cancelled_drop hcancelled candidate
        have hfirst : findHeaderCandidate (d.input.drop candidate) = some 0 := by
          cases hl : d.input.drop candidate with
          | nil => exact absurd (List.drop_eq_nil_iff.mp hl) (Nat.not_le.mpr hlt)
          | cons byte rest =>
              rw [hl] at hat
              rw [findHeaderCandidate, if_pos hat]
        unfold nextHeader
        rw [if_neg (by simp [hclean])]
        simp only [hfirst, List.drop_zero, hparse]
      · cases h

/-- No header is left where more bytes are asked for. -/
theorem not_headerAhead {d d' : WireDecoder} (h : d.nextHeader = (d', .ok none)) :
    ¬ HeaderAhead d' := by
  rintro ⟨d₁, d₂, herrors, header, hheader⟩
  have hnone := nextHeader_none h
  rcases herrors.cases_head with rfl | ⟨next, ⟨error, herror⟩, -⟩
  · rw [hnone] at hheader
    cases hheader
  · rw [hnone] at herror
    cases herror

end WireDecoder

/-! ### The loop over the headers -/

namespace Sender

/-- Where the loop stops without ending the transfer, it has taken the headers at the head of the
buffer, and either asked for more bytes or met a damaged header. -/
theorem loop_wire {fuel : ℕ} {s : Sender} (hfuel : s.wire.input.length < fuel)
    (hrunning : (Loop.loop running pumpHeader fuel s).running = true) :
    ∃ d, ReflTransGen WireDecoder.StepHeader s.wire d ∧
      (d.nextHeader = ((Loop.loop running pumpHeader fuel s).wire, .ok none) ∨
        WireDecoder.StepNoise d (Loop.loop running pumpHeader fuel s).wire) := by
  induction fuel generalizing s with
  | zero => omega
  | succ fuel ih =>
      cases hgo : s.running with
      | false =>
          rw [Loop.loop_of_stop hgo, hgo] at hrunning
          cases hrunning
      | true =>
          rcases hr : s.pumpHeader with ⟨t, more⟩
          cases more with
          | true =>
              have hshorter := pumpHeader_shortens hr
              rw [Loop.loop_again hgo hr] at hrunning ⊢
              obtain ⟨d, hheaders, hend⟩ := ih (by omega) hrunning
              refine ⟨d, hheaders.head ?_, hend⟩
              have hlive : t.state ≠ .terminal := by
                intro hterminal
                rw [Loop.loop_of_stop (by simp [running, isTerminal_iff.mpr hterminal])] at hrunning
                exact not_terminal_of_running hrunning hterminal
              unfold pumpHeader at hr
              split at hr
              · rename_i wire decoded hnext
                obtain ⟨rfl, -⟩ := Prod.mk.inj hr
                rw [handleHeader_wire hlive]
                exact ⟨decoded, hnext⟩
              all_goals cases hr
          | false =>
              rw [Loop.loop_done hgo hr] at hrunning ⊢
              refine ⟨s.wire, .refl, ?_⟩
              have hlive := not_terminal_of_running hrunning
              unfold pumpHeader at hr
              split at hr
              · cases hr
              · rename_i wire hnext
                obtain ⟨rfl, -⟩ := Prod.mk.inj hr
                exact .inl hnext
              · obtain ⟨rfl, -⟩ := Prod.mk.inj hr
                exact absurd rfl hlive
              · rename_i wire hnext
                obtain ⟨rfl, -⟩ := Prod.mk.inj hr
                exact .inr (.inl hnext)
              · rename_i wire hnext
                obtain ⟨rfl, -⟩ := Prod.mk.inj hr
                exact .inr (.inr hnext)
              · obtain ⟨rfl, -⟩ := Prod.mk.inj hr
                exact absurd rfl hlive

end Sender

/-- **A sender that goes on after a push leaves a header in its buffer exactly where the buffer had
a damaged header before it.** -/
theorem header_left_iff {s : Sender} {bytes : List UInt8}
    (haccepted : (s.pushSerialBytes bytes).2 = .ok ())
    (hrunning : (s.pushSerialBytes bytes).1.running = true) :
    ¬ (s.pushSerialBytes bytes).1.wire.HeaderAhead ↔ ¬ (s.wire.push bytes).1.Hides := by
  rw [not_iff_not]
  unfold Sender.pushSerialBytes at haccepted hrunning ⊢
  split_ifs at haccepted hrunning ⊢ with hterminal
  split at haccepted
  · cases haccepted
  rename_i wire hpush
  rw [hpush] at hrunning ⊢
  simp only at hrunning ⊢
  obtain ⟨d, hheaders, hend⟩ := Sender.loop_wire (Nat.lt_succ_self _) hrunning
  have hstop : ∀ d', ¬ WireDecoder.StepHeader d d' := by
    rintro d' ⟨header, hheader⟩
    rcases hend with h | h | h
    all_goals
      rw [h] at hheader
      cases hheader
  constructor
  · intro hahead
    rcases hend with hnone | hnoise
    · exact absurd hahead (WireDecoder.not_headerAhead hnone)
    · exact ⟨d, _, hheaders, hnoise, hahead⟩
  · rintro ⟨d₁, d₂, hheaders₁, hnoise₁, hahead⟩
    have hstop₁ : ∀ d', ¬ WireDecoder.StepHeader d₁ d' := by
      rintro d' ⟨header, hheader⟩
      rcases hnoise₁ with h | h
      all_goals
        rw [h] at hheader
        cases hheader
    obtain rfl := WireDecoder.headers_unique hheaders hheaders₁ hstop hstop₁
    have hwire : d₂ = (Sender.pumpHeaders { s with wire }).wire := by
      rcases hend with h | h | h <;> rcases hnoise₁ with h₁ | h₁
      all_goals exact (congrArg Prod.fst h₁).symm.trans (congrArg Prod.fst h)
    rwa [← hwire]

/-! ### A damaged header before a sound one -/

/-- The initialisation of the receiver with one digit changed. -/
def garbledInit : List UInt8 := (encodeHexHeader plainReceiverInit).set 5 0x33

theorem header_left_iff_receiverInit :
    ¬ (emptyFileSender.pushSerialBytes (encodeHexHeader plainReceiverInit)).1.wire.HeaderAhead ↔
      ¬ (emptyFileSender.wire.push (encodeHexHeader plainReceiverInit)).1.Hides :=
  header_left_iff (by decide) (by decide)

/-- A sound header stays in the buffer behind the damaged one, where it is answered when it comes
by itself. -/
theorem receiverInit_left :
    Sender.new [emptyFile] .default = .ok emptyFileSender ∧
      (emptyFileSender.pushSerialBytes (garbledInit ++ encodeHexHeader plainReceiverInit)).2 =
        .ok () ∧
      (emptyFileSender.pushSerialBytes
        (garbledInit ++ encodeHexHeader plainReceiverInit)).1.running = true ∧
      (emptyFileSender.pushSerialBytes
        (garbledInit ++ encodeHexHeader plainReceiverInit)).1.wire.HeaderAhead ∧
      (emptyFileSender.pushSerialBytes
        (garbledInit ++ encodeHexHeader plainReceiverInit)).1.actions = [] ∧
      ((emptyFileSender.pushSerialBytes garbledInit).1.pushSerialBytes
        (encodeHexHeader plainReceiverInit)).1.actions ≠ [] := by
  have hheader : (emptyFileSender.pushSerialBytes
      (garbledInit ++ encodeHexHeader plainReceiverInit)).1.wire.nextHeader.2 =
        .ok (some ⟨plainReceiverInit, .crc16⟩) := by decide
  exact ⟨new_emptyFile, by decide, by decide,
    WireDecoder.headerAhead_of_nextHeader hheader, by decide, by decide⟩

end Netcatty.Serial.Zmodem
