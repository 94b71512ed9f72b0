import Netcatty.Serial.Zmodem.Noise

/-! # What the sender hands over

The header that ends the batch hands the rest of the buffer over as bytes of the terminal
(`completes_handleHeader`).  What completes the batch does so with more bytes behind it, and hands
these over too (`pumpHeaders_longer`). -/

namespace Netcatty.Serial.Zmodem

open WireDecoder (Longer)

/-! ### Completion -/

namespace Sender

/-- The batch is complete, and `bytes` were handed over. -/
def Completes (s : Sender) (bytes : List UInt8) : Prop :=
  s.state = .terminal ∧ ∃ summary, s.actions.getLast? = some (.batchCompleted summary bytes)

/-- The batch is not complete: a terminal sender has queued something else last. -/
def Incomplete (s : Sender) : Prop :=
  s.state = .terminal → ∃ a, s.actions.getLast? = some a ∧
    ∀ summary bytes, a ≠ .batchCompleted summary bytes

theorem Incomplete.not_completes {s : Sender} (h : s.Incomplete) {bytes : List UInt8} :
    ¬ s.Completes bytes := by
  rintro ⟨hterminal, summary, hlast⟩
  obtain ⟨a, ha, hne⟩ := h hterminal
  exact hne summary bytes (Option.some.inj (ha.symm.trans hlast))

theorem Completes.unique {s : Sender} {bytes bytes' : List UInt8} (h : s.Completes bytes)
    (h' : s.Completes bytes') : bytes = bytes' := by
  obtain ⟨-, summary, hlast⟩ := h
  obtain ⟨-, summary', hlast'⟩ := h'
  have := hlast.symm.trans hlast'
  simp only [Option.some.injEq, SenderAction.batchCompleted.injEq] at this
  exact this.2

theorem incomplete_of_state {s : Sender} (h : s.state ≠ .terminal) : s.Incomplete :=
  fun hterminal => absurd hterminal h

/-- The last action is the one queued, or reports that there was no room for it. -/
theorem last_queue (s : Sender) (a : SenderAction) :
    (s.Room 1 ∧ (s.queue a).actions.getLast? = some a) ∨
      (s.queue a).actions.getLast? = some (.failed (.actionQueueFull maxPendingActions)) := by
  by_cases h : s.Room 1
  · rw [queue_of_room h]
    exact .inl ⟨h, by simp⟩
  · refine .inr ?_
    unfold queue
    rw [queueSenderAction_of_full h]
    rfl

section Handlers

variable (s : Sender)

theorem incomplete_queue {a : SenderAction}
    (ha : ∀ summary bytes, a ≠ .batchCompleted summary bytes) : (s.queue a).Incomplete := by
  intro _
  rcases last_queue s a with ⟨-, h⟩ | h
  · exact ⟨_, h, ha⟩
  · exact ⟨_, h, fun _ _ => nofun⟩

theorem incomplete_fail (e : Error) : (s.fail e).Incomplete := by
  intro _
  rcases last_queue s (.failed e) with ⟨-, h⟩ | h
  · exact ⟨_, h, fun _ _ => nofun⟩
  · exact ⟨_, h, fun _ _ => nofun⟩

theorem incomplete_sendOffer (attempts : ℕ) : (s.sendOffer attempts).Incomplete := by
  simp only [sendOffer]
  split
  · exact incomplete_fail s _
  · split
    · exact incomplete_fail _ _
    · exact incomplete_of_state SenderState.noConfusion

theorem incomplete_sendSenderInit (attempts : ℕ) : (s.sendSenderInit attempts).Incomplete := by
  simp only [sendSenderInit]
  split
  · exact incomplete_fail _ _
  · exact incomplete_of_state SenderState.noConfusion

theorem incomplete_retry {send : Sender → ℕ → Sender} (h : ∀ n, (send s n).Incomplete)
    (attempts : ℕ) : (retry send s attempts).Incomplete := by
  unfold retry
  split_ifs
  · exact incomplete_fail s _
  · exact h _

theorem incomplete_beginOrResumeSource (offset attempts : ℕ) :
    (s.beginOrResumeSource offset attempts).Incomplete := by
  simp only [beginOrResumeSource]
  split_ifs
  · exact incomplete_fail s _
  · exact incomplete_fail s _
  · split
    · exact incomplete_fail _ _
    · exact incomplete_of_state SenderState.noConfusion
  · exact incomplete_of_state SenderState.noConfusion

theorem incomplete_sendEndOfFile (attempts : ℕ) : (s.sendEndOfFile attempts).Incomplete :=
  incomplete_of_state (by simp [sendEndOfFile])

theorem incomplete_sendFinish (attempts : ℕ) : (s.sendFinish attempts).Incomplete :=
  incomplete_of_state (by simp [sendFinish])

theorem incomplete_nextFile : s.nextFile.Incomplete := by
  rw [nextFile_eq]
  split_ifs
  · exact incomplete_of_state nofun
  · exact incomplete_sendOffer _ _

theorem incomplete_handleReceiverInit (header : Header) :
    (s.handleReceiverInit header).Incomplete := by
  unfold handleReceiverInit
  split_ifs
  · exact incomplete_sendSenderInit s _
  · exact incomplete_sendOffer s _
  · exact incomplete_fail s _

end Handlers

/-- Only the header that ends the batch completes it. -/
theorem incomplete_handleHeader {s : Sender} {decoded : DecodedHeader}
    (hs : s.state ≠ .terminal) (h : ¬ s.Finishes decoded) :
    (s.handleHeader decoded).Incomplete := by
  unfold handleHeader
  simp only
  split_ifs
  · exact incomplete_fail s _
  · exact incomplete_fail s _
  cases hstate : s.state with
  | awaitReceiverInit attempts =>
      simp only
      split
      · exact incomplete_handleReceiverInit _ _
      · exact incomplete_queue s fun _ _ => nofun
      · exact incomplete_of_state hs
  | awaitSenderInitAck attempts =>
      simp only
      split
      · exact incomplete_sendOffer s _
      · exact incomplete_retry s (incomplete_sendSenderInit s) _
      · exact incomplete_retry s (incomplete_sendSenderInit s) _
      · exact incomplete_of_state hs
  | awaitOfferResponse attempts =>
      simp only
      split
      · exact incomplete_beginOrResumeSource s _ _
      · exact incomplete_nextFile _
      · exact incomplete_retry s (incomplete_sendOffer s) _
      · exact incomplete_retry s (incomplete_sendOffer s) _
      · exact incomplete_of_state hs
  | awaitSource attempts =>
      simp only
      split
      · exact incomplete_beginOrResumeSource s _ _
      · exact incomplete_of_state hs
  | awaitReceiverInitAfterFile attempts =>
      simp only
      split
      · exact incomplete_nextFile _
      · exact incomplete_beginOrResumeSource s _ _
      · exact incomplete_nextFile _
      · exact incomplete_retry s (incomplete_sendEndOfFile s) _
      · exact incomplete_of_state hs
  | awaitFinish attempts =>
      simp only
      split
      · rename_i hfinish
        exact absurd ⟨⟨attempts, hstate⟩, hfinish⟩ h
      · exact incomplete_retry s (incomplete_sendFinish s) _
      · exact incomplete_retry s (incomplete_sendFinish s) _
      · exact incomplete_of_state hs
  | terminal => exact absurd hstate hs

theorem handleHeader_of_finishes {s : Sender} {decoded : DecodedHeader} (h : s.Finishes decoded)
    (w : WireDecoder) : (s.withWire w).handleHeader decoded = (s.withWire w).completeBatch := by
  obtain ⟨⟨attempts, hstate⟩, hfinish⟩ := h
  unfold handleHeader
  simp only [hfinish, withWire_state, hstate]
  rfl

theorem terminal_of_finishes {s : Sender} {decoded : DecodedHeader} (h : s.Finishes decoded) :
    (s.handleHeader decoded).state = .terminal :=
  congrArg Sender.state (handleHeader_of_finishes h s.wire)

/-- The header that ends the batch hands over the rest of the buffer. -/
theorem completes_handleHeader {s : Sender} {decoded : DecodedHeader} {bytes : List UInt8}
    (h : s.Finishes decoded) (hcomplete : (s.handleHeader decoded).Completes bytes)
    (w : WireDecoder) :
    bytes = s.wire.input ∧ ((s.withWire w).handleHeader decoded).Completes w.input := by
  have hself : s.handleHeader decoded = s.completeBatch := handleHeader_of_finishes h s.wire
  rw [hself, completeBatch_eq] at hcomplete
  rw [handleHeader_of_finishes h, completeBatch_eq, queue_withWire]
  obtain ⟨-, summary, hlast⟩ := hcomplete
  rcases last_queue (s.queue (.write overAndOut)).closeWire (.batchCompleted
    (s.queue (.write overAndOut)).batchSummary s.wire.input) with ⟨hroom, hin⟩ | hfull
  · have hbytes := hin.symm.trans hlast
    simp only [Option.some.injEq, SenderAction.batchCompleted.injEq] at hbytes
    refine ⟨hbytes.2.symm, rfl, (s.queue (.write overAndOut)).batchSummary, ?_⟩
    have hroom' : ((s.queue (.write overAndOut)).withWire w).closeWire.Room 1 := hroom
    rw [queue_of_room hroom']
    simp only [setState_actions, append_actions, List.getLast?_append, List.getLast?_singleton,
      Option.some_or]
    rfl
  · cases hfull.symm.trans hlast

/-! ### Longer pushes -/

theorem incomplete_pumpHeader {s t : Sender} (hs : s.state ≠ .terminal)
    (h : s.pumpHeader = (t, false)) : t.Incomplete := by
  unfold pumpHeader at h
  split at h
  · cases h
  all_goals
    obtain ⟨rfl, -⟩ := Prod.mk.inj h
  · exact incomplete_of_state hs
  · exact incomplete_fail _ _
  · exact incomplete_of_state hs
  · exact incomplete_of_state hs
  · exact incomplete_fail _ _

/-- A buffer that holds no header completes no batch. -/
theorem incomplete_pumpHeaders {s : Sender} (hs : s.state ≠ .terminal) (hdry : s.wire.Dry) :
    s.pumpHeaders.Incomplete := by
  cases hgo : s.running with
  | false =>
      rw [pumpHeaders_stop hgo]
      exact incomplete_of_state hs
  | true =>
      rcases hr : s.pumpHeader with ⟨t, more⟩
      cases more with
      | false =>
          rw [pumpHeaders_last hgo hr]
          exact incomplete_pumpHeader hs hr
      | true =>
          have hnone := (WireDecoder.nextHeader_dry hdry).2
          unfold pumpHeader at hr
          split at hr
          · rename_i wire decoded hnext
            rw [hnext] at hnone
            exact absurd rfl (hnone decoded)
          all_goals cases hr

/-- **What completes the batch completes it with more bytes in the buffer**, and hands them over
too. -/
theorem pumpHeaders_longer {s : Sender} {w : WireDecoder} {u bytes : List UInt8}
    (hu : u.head? ≠ some xon) (hs : s.state ≠ .terminal) (hw : Longer u s.wire w)
    (h : s.pumpHeaders.Completes bytes) : (s.withWire w).pumpHeaders.Completes (bytes ++ u) := by
  induction hn : s.wire.input.length using Nat.strong_induction_on generalizing s w with
  | _ n ih =>
  subst hn
  cases hgo : s.running with
  | false =>
      rw [pumpHeaders_stop hgo] at h
      exact absurd h.1 hs
  | true =>
      rcases hr : s.pumpHeader with ⟨t, more⟩
      cases more with
      | false =>
          rw [pumpHeaders_last hgo hr] at h
          exact absurd h (incomplete_pumpHeader hs hr).not_completes
      | true =>
          have hshorter := pumpHeader_shortens hr
          rw [pumpHeaders_next hgo hr] at h
          unfold pumpHeader at hr
          split at hr
          · rename_i wire decoded hnext
            obtain ⟨rfl, -⟩ := Prod.mk.inj hr
            change ((s.withWire wire).handleHeader decoded).pumpHeaders.Completes bytes at h
            obtain ⟨w', hnext', hw'⟩ := WireDecoder.nextHeader_longer hu hnext hw
            have hr' : (s.withWire w).pumpHeader =
                ((s.withWire w').handleHeader decoded, true) := by
              unfold pumpHeader
              rw [withWire_wire, hnext']
              rfl
            rw [pumpHeaders_next (s := s.withWire w) hgo hr']
            have hstop : ∀ {t : Sender}, t.state = .terminal → t.pumpHeaders = t := fun ht =>
              pumpHeaders_stop (by simp [running, isTerminal_iff.mpr ht])
            by_cases hfinishes : (s.withWire wire).Finishes decoded
            · rw [hstop (terminal_of_finishes hfinishes)] at h
              obtain ⟨rfl, hlonger⟩ := completes_handleHeader hfinishes h w'
              rw [withWire_withWire, hw'.input] at hlonger
              rwa [hstop hlonger.1]
            · have hwith : (s.withWire w').handleHeader decoded =
                  ((s.withWire wire).handleHeader decoded).withWire w' :=
                handleHeader_withWire hfinishes w'
              rw [hwith]
              by_cases ht : ((s.withWire wire).handleHeader decoded).state = .terminal
              · rw [hstop ht] at h
                have hincomplete := incomplete_handleHeader (s := s.withWire wire) hs hfinishes
                exact absurd h hincomplete.not_completes
              · refine ih _ hshorter ht ?_ h rfl
                rw [handleHeader_wire ht]
                exact hw'
          all_goals cases hr

/-- **The sender hands over what follows its marker** unless a flow-control byte is among it or it
cancels the transfer. -/
theorem remainder_iff {s : Sender} {p t : List UInt8}
    (haccepted : (s.pushSerialBytes (p ++ t)).2 = .ok ())
    (hdone : (s.pushSerialBytes p).1.Completes []) :
    (s.pushSerialBytes (p ++ t)).1.Completes t ↔
      (∀ b ∈ t, isFlowControl b = false) ∧ (s.wire.push (p ++ t)).1.cancelled = false := by
  unfold pushSerialBytes at haccepted hdone ⊢
  split_ifs at haccepted hdone ⊢ with hterminal
  have hs : s.state ≠ .terminal := fun h => hterminal (isTerminal_iff.mpr h)
  rcases hpush : s.wire.push (p ++ t) with ⟨w, e | _⟩
  · rw [hpush] at haccepted
    cases haccepted
  obtain ⟨d, hd, hinput⟩ := WireDecoder.push_longer hpush
  rw [hd] at hdone
  simp only at hdone ⊢
  by_cases hcancelled : w.cancelled = true
  · have hincomplete : (pumpHeaders { s with wire := w }).Incomplete :=
      incomplete_pumpHeaders hs (.inl hcancelled)
    simp [hcancelled, hincomplete.not_completes]
  · rw [Bool.not_eq_true] at hcancelled
    have hlonger := pumpHeaders_longer (head_buffered t) (s := { s with wire := d }) hs
      ⟨hinput, hcancelled⟩ hdone
    rw [List.nil_append] at hlonger
    rw [← buffered_eq_self_iff]
    refine ⟨fun h => ⟨hlonger.unique h, hcancelled⟩, fun h => ?_⟩
    rw [h.1] at hlonger
    exact hlonger

end Sender

end Netcatty.Serial.Zmodem
