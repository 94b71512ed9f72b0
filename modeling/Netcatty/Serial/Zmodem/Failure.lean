import Netcatty.Serial.Zmodem.ReceiverFailure
import Netcatty.Serial.Zmodem.SenderFailure

/-! # When a failure is final

`failure_is_final`: in a run whose calls find room in the queue, a failure is the last action and the
machine refuses its callers from then on.  Without room it need not be: a peer that floods a sender
with challenges and then asks for an initialisation (`challengeFlood`) finds it at work again after
the failure (`flooded_sender_goes_on`). -/

namespace Netcatty.Serial.Zmodem

open Netcatty.Driver Netcatty.Loop Netcatty.Runs

/-! ### Terminal machines -/

/-- The sender is terminal and refuses its callers. -/
def Sender.Refuses (s : Sender) : Prop :=
  s.isTerminal = true ∧ (∀ bytes, s.pushSerialBytes bytes = (s, .error .invalidState)) ∧
    s.onTimeout = (s, .error .invalidState) ∧ s.cancel = (s, .error .invalidState)

/-- The receiver is terminal and refuses its callers. -/
def Receiver.Refuses (r : Receiver) : Prop :=
  r.isTerminal = true ∧ (∀ bytes, r.pushSerialBytes bytes = (r, .error .invalidState)) ∧
    r.onTimeout = (r, .error .invalidState) ∧ r.cancel = (r, .error .invalidState)

theorem Sender.refuses_of_terminal {s : Sender} (hs : s.state = .terminal) : s.Refuses := by
  have ht : s.isTerminal = true := isTerminal_iff.mpr hs
  exact ⟨ht, fun _ => if_pos ht, if_pos ht, if_pos ht⟩

theorem Receiver.refuses_of_terminal {r : Receiver} (hr : r.state = .terminal) : r.Refuses := by
  have ht : r.isTerminal = true := isTerminal_iff.mpr hr
  exact ⟨ht, fun _ => if_pos ht, if_pos ht, if_pos ht⟩

theorem sender_failure {files : List FileMetadata} {config : Config} {s : Sender}
    {moves : List (Move SenderCall)} {d : Driven Sender SenderAction}
    (hnew : Sender.new files config = .ok s)
    (h : Run (Sender.actor.Step Sender.HasRoom) ⟨s, []⟩ moves d) :
    FailureIsFinal Sender.actor SenderAction.isFailure Sender.Refuses d := by
  have hterminal : ∀ (s : Sender) c, s.state = .terminal → (Sender.actor.call s c).1 = s :=
    fun _ c hs => Sender.call_of_terminal hs c
  exact (Sender.sound_of_hasRoom hnew h).failureIsFinal hterminal (fun _ hs => hs)
    fun _ hs => Sender.refuses_of_terminal hs

theorem receiver_failure {config : Config} {moves : List (Move ReceiverCall)}
    {d : Driven Receiver ReceiverAction}
    (h : Run (Receiver.actor.Step Receiver.HasRoom) ⟨Receiver.new config, []⟩ moves d) :
    FailureIsFinal Receiver.actor ReceiverAction.isFailure Receiver.Refuses d := by
  have hterminal : ∀ (r : Receiver) c, r.state = .terminal → (Receiver.actor.call r c).1 = r :=
    fun _ c hr => Receiver.call_of_terminal hr c
  exact (Receiver.sound_of_hasRoom h).failureIsFinal hterminal (fun _ hr => hr)
    fun _ hr => Receiver.refuses_of_terminal hr

/-- **A failure is final** for both machines, in every run whose calls find room. -/
theorem failure_is_final (config : Config) :
    (∀ files s moves d, Sender.new files config = .ok s →
      Run (Sender.actor.Step Sender.HasRoom) ⟨s, []⟩ moves d →
        FailureIsFinal Sender.actor SenderAction.isFailure Sender.Refuses d) ∧
    ∀ moves d,
      Run (Receiver.actor.Step Receiver.HasRoom) ⟨Receiver.new config, []⟩ moves d →
        FailureIsFinal Receiver.actor ReceiverAction.isFailure Receiver.Refuses d :=
  ⟨fun _ _ _ _ hnew h => sender_failure hnew h, fun _ _ h => receiver_failure h⟩

/-! ### A flood of challenges -/

/-- An empty file. -/
def emptyFile : FileMetadata where
  fileName := fallbackName
  totalBytes := 0
  modifiedTime := 0
  mode := 0
  filesRemaining := none
  bytesRemaining := none
  fileName_clean := cleanName_fallbackName
  fileName_le := length_encodeUtf8_fallbackName
  totalBytes_le := zero_le_maxFileBytes

/-- A sender of one empty file. -/
def emptyFileSender : Sender where
  config := .default
  files := [emptyFile]
  wire := {}
  state := .awaitReceiverInit 1
  actions := []
  fileIndex := 0
  offset := 0
  checksum := .crc16
  completedFiles := 0
  skippedFiles := 0
  transferredBytes := 0
  batchTotalBytes := 0

theorem new_emptyFile : Sender.new [emptyFile] .default = .ok emptyFileSender := rfl

/-- Both machines meet a failure with room in the queue. -/
theorem failure_is_final_cancel :
    FailureIsFinal Sender.actor SenderAction.isFailure Sender.Refuses
        (Sender.actor.step ⟨emptyFileSender, []⟩ (.call .cancel)) ∧
      FailureIsFinal Receiver.actor ReceiverAction.isFailure Receiver.Refuses
        (Receiver.actor.step ⟨Receiver.new .default, []⟩ (.call .cancel)) := by
  have hsender : Sender.HasRoom emptyFileSender (.call .cancel) := by
    unfold Sender.HasRoom Sender.Room
    decide
  have hreceiver : Receiver.HasRoom (Receiver.new .default) (.call .cancel) :=
    ⟨by unfold Receiver.Room; decide, by simp [Receiver.rounds, Receiver.pumped]⟩
  exact ⟨(failure_is_final .default).1 _ _ _ _ new_emptyFile (Run.single ⟨hsender, rfl⟩),
    (failure_is_final .default).2 _ _ (Run.single ⟨hreceiver, rfl⟩)⟩

def challenge : Header := ⟨.challenge, 0, 0, 0, 0⟩

/-- A receiver that does not escape control bytes. -/
def plainReceiverInit : Header := ⟨.receiverInit, 0, 0, 0, 3⟩

/-- As many challenges as leave room for one action, and an initialisation that asks for two. -/
def floodItems : List Item :=
  List.replicate 511 (.hexHeader challenge) ++ [.hexHeader plainReceiverInit]

def challengeFlood : List UInt8 := floodItems.flatMap Item.encode

namespace Sender

/-- The answer to a challenge. -/
def challengeAck : SenderAction := .write (encodeHexHeader ⟨.ack, 0, 0, 0, 0⟩)

theorem handleHeader_challenge {s : Sender} {attempts : ℕ} (hs : s.state = .awaitReceiverInit attempts)
    (hroom : s.Room 1) : s.handleHeader ⟨challenge, .crc16⟩ = s.append [challengeAck] := by
  simp only [handleHeader, challenge, hs]
  rw [if_neg (by simp), if_neg (by simp), queue_of_room hroom]
  rfl

/-- Each challenge is answered. -/
theorem pumpHeaders_challenges {n : ℕ} {s : Sender} {attempts : ℕ} {items : List Item}
    (hs : s.state = .awaitReceiverInit attempts) (hc : s.wire.remoteCancelled = false)
    (hin : s.wire.input = stream (List.replicate n (.hexHeader challenge) ++ items))
    (hroom : s.Room n) :
    s.pumpHeaders = pumpHeaders { s with
      wire := { s.wire with input := stream items }
      actions := s.actions ++ List.replicate n challengeAck } := by
  induction n generalizing s with
  | zero =>
      rw [List.replicate_zero, List.nil_append] at hin
      simp [← hin]
  | succ n ih =>
      rw [List.replicate_succ, List.cons_append] at hin
      have hrun : s.running = true := by
        unfold Room at hroom
        simp only [running, isTerminal, hs, Bool.and_eq_true, decide_eq_true_eq]
        exact ⟨rfl, by omega⟩
      have hnext := WireDecoder.nextHeader_hexHeader hc hin
      let t : Sender := { s with
        wire := { s.wire with input := stream (List.replicate n (.hexHeader challenge) ++ items) } }
      have hround : s.pumpHeader = (t.append [challengeAck], true) := by
        simp only [pumpHeader, hnext]
        exact Prod.ext (handleHeader_challenge (s := t) hs (hroom.mono (by omega))) rfl
      have hroom' : (t.append [challengeAck]).Room n := by
        rw [room_append, List.length_singleton, Nat.add_comm]
        exact hroom
      rw [pumpHeaders_next hrun hround, ih (s := t.append [challengeAck]) hs hc rfl hroom']
      simp [t, append, List.replicate_succ]

/-- The second action of the initialisation finds the queue full. -/
theorem handleHeader_plainReceiverInit {s : Sender} {attempts : ℕ}
    (hs : s.state = .awaitReceiverInit attempts) (h₁ : s.Room 1) (h₂ : ¬ s.Room 2) :
    s.handleHeader ⟨plainReceiverInit, .crc16⟩ = { s with
      checksum := .crc16
      actions := [.failed (.actionQueueFull maxPendingActions)]
      state := .awaitSenderInitAck 1 } := by
  have hfull : ∀ a, ¬ (append { s with checksum := .crc16 } [a]).Room 1 := fun a hr =>
    h₂ ((room_append _).mp hr)
  have hinit : s.handleHeader ⟨plainReceiverInit, .crc16⟩ =
      sendSenderInit { s with checksum := .crc16 } 1 := by
    simp only [handleHeader, hs, plainReceiverInit]
    rw [if_neg (by simp), if_neg (by simp)]
    rfl
  rw [hinit, sendSenderInit, queue_of_room (s := { s with checksum := .crc16 }) h₁,
    encodeSubpacket_of_le (by decide)]
  simp only
  rw [queue, queueSenderAction_of_full (hfull _)]
  rfl

/-- The sender after the flood has failed, and waits for an answer. -/
theorem pushSerialBytes_challengeFlood : ∃ wire,
    (emptyFileSender.pushSerialBytes challengeFlood).1 = { emptyFileSender with
      wire
      actions := [.failed (.actionQueueFull maxPendingActions)]
      state := .awaitSenderInitAck 1 } := by
  have hlen : ∀ n, (List.flatMap Item.encode (List.replicate n (.hexHeader challenge) ++
      [.hexHeader plainReceiverInit])).length = n * 21 + 21 := by
    intro n
    have hitem : (Item.encode (.hexHeader challenge)).length = 21 := by decide
    have hlast : (Item.encode (.hexHeader plainReceiverInit)).length = 21 := by decide
    rw [List.flatMap_append, List.length_append, List.length_flatMap, List.map_replicate, hitem,
      List.sum_replicate_nat, List.flatMap_singleton, hlast]
  obtain ⟨wire, hpush⟩ : ∃ wire, WireDecoder.push {} challengeFlood = (wire, .ok ()) := by
    unfold WireDecoder.push
    rw [if_neg (by rw [challengeFlood, floodItems, hlen]; decide)]
    exact ⟨_, rfl⟩
  obtain ⟨hc, hin⟩ := WireDecoder.push_items hpush
  have hpushed : (emptyFileSender.pushSerialBytes challengeFlood).1 =
      pumpHeaders { emptyFileSender with wire } := by
    have hpush' : emptyFileSender.wire.push challengeFlood = (wire, .ok ()) := hpush
    unfold pushSerialBytes
    rw [if_neg (by decide), hpush']
  have hacks := pumpHeaders_challenges (n := 511) (s := { emptyFileSender with wire }) rfl hc hin
    (show 0 + 511 ≤ 512 by omega)
  let t : Sender := { emptyFileSender with
    wire := { wire with input := stream [.hexHeader plainReceiverInit] }
    actions := List.replicate 511 challengeAck }
  let u : Sender := { emptyFileSender with
    wire := { wire with input := [] }
    actions := [.failed (.actionQueueFull maxPendingActions)]
    state := .awaitSenderInitAck 1 }
  have ht₁ : t.Room 1 := by
    show (List.replicate 511 challengeAck).length + 1 ≤ 512
    rw [List.length_replicate]
  have ht₂ : ¬ t.Room 2 := by
    show ¬ (List.replicate 511 challengeAck).length + 2 ≤ 512
    rw [List.length_replicate]
    omega
  have hround : t.pumpHeader = (u, true) := by
    have hnext := WireDecoder.nextHeader_hexHeader (d := t.wire) hc rfl
    simp only [pumpHeader, hnext]
    exact Prod.ext (handleHeader_plainReceiverInit (s := { t with wire := _ }) rfl ht₁ ht₂) rfl
  have hlast : u.pumpHeader = (u, false) := by
    have hcancelled : u.wire.cancelled = false := by
      simp [u, WireDecoder.cancelled, hc, containsRemoteCancel]
    unfold pumpHeader WireDecoder.nextHeader
    rw [hcancelled]
    rfl
  have hrunning : t.running = true := by
    simp only [running, Bool.and_eq_true, decide_eq_true_eq]
    exact ⟨rfl, ht₁⟩
  refine ⟨u.wire, ?_⟩
  calc (emptyFileSender.pushSerialBytes challengeFlood).1
      = pumpHeaders { emptyFileSender with wire } := hpushed
    _ = t.pumpHeaders := hacks
    _ = u.pumpHeaders := pumpHeaders_next hrunning hround
    _ = u := pumpHeaders_last rfl hlast

end Sender

/-- A push that fails and leaves the sender waiting shows that a failure is not final. -/
theorem not_final_of_push {flood : List UInt8} {wire : WireDecoder}
    (hflood : (emptyFileSender.pushSerialBytes flood).1 = { emptyFileSender with
      wire
      actions := [.failed (.actionQueueFull maxPendingActions)]
      state := .awaitSenderInitAck 1 }) :
    ¬ FailureIsFinal Sender.actor SenderAction.isFailure Sender.Refuses
      (Sender.actor.step ⟨emptyFileSender, []⟩ (.call (.pushSerialBytes flood))) := by
  intro hfinal
  have hlog : Sender.actor.log (Sender.actor.step ⟨emptyFileSender, []⟩
      (.call (.pushSerialBytes flood))) =
        [] ++ .failed (.actionQueueFull maxPendingActions) :: [] := by
    show [] ++ (emptyFileSender.pushSerialBytes flood).1.actions = _
    rw [hflood]
  obtain ⟨-, hrefuses⟩ := hfinal _ _ _ hlog rfl
  have hterminal := (hrefuses [] _ Run.refl).2.1
  have hstate : (emptyFileSender.pushSerialBytes flood).1.isTerminal = true := hterminal
  rw [hflood] at hstate
  cases hstate

/-- **A failure need not be final**: the flood makes the sender fail, and leaves it waiting for an
answer. -/
theorem flooded_sender_goes_on :
    ¬ ∀ files config s moves d, Sender.new files config = .ok s →
      Run (Sender.actor.Step fun _ _ => True) ⟨s, []⟩ moves d →
        FailureIsFinal Sender.actor SenderAction.isFailure Sender.Refuses d := by
  intro h
  obtain ⟨wire, hflood⟩ := Sender.pushSerialBytes_challengeFlood
  exact not_final_of_push hflood (h _ _ _ _ _ new_emptyFile (Run.single ⟨trivial, rfl⟩))

end Netcatty.Serial.Zmodem
