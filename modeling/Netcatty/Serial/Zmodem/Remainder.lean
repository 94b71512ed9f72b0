import Netcatty.Serial.Zmodem.ReceiverRemainder
import Netcatty.Serial.Zmodem.SenderRemainder

/-! # The bytes after a batch

A batch ends at a marker: the ZFIN header for the sender, `OO` for the receiver.  The machine hands
the rest of its buffer over as bytes of the terminal.  Two runs are compared, one in which a push
ends at the marker and one in which the bytes `t` follow in the same push.  The second hands over
`t` exactly where no byte of it is a flow-control byte, which the buffer never holds, and no five
CAN bytes in a row cancel the transfer (`remainder_exact`). -/

set_option maxRecDepth 8000

namespace Netcatty.Serial.Zmodem

open Driver

/-- A push of `p` and `t` keeps the bytes of `t`, and does not cancel the transfer. -/
def WireDecoder.KeepsAll (d : WireDecoder) (p t : List UInt8) : Prop :=
  (∀ b ∈ t, isFlowControl b = false) ∧ (d.push (p ++ t)).1.cancelled = false

/-- **The bytes after a batch are handed over as they came** exactly where the push keeps them. -/
theorem remainder_exact (p t : List UInt8) :
    (∀ s : Sender, (s.pushSerialBytes (p ++ t)).2 = .ok () →
      (s.pushSerialBytes p).1.Completes [] →
        ((s.pushSerialBytes (p ++ t)).1.Completes t ↔ s.wire.KeepsAll p t)) ∧
    ∀ (d : Driven Receiver ReceiverAction) (moves : List (Move ReceiverCall)),
      (∀ m ∈ moves, Receiver.Quiet m) → (d.machine.pushSerialBytes (p ++ t)).2 = .ok () →
      Receiver.Finishes (Receiver.actor.after d (.call (.pushSerialBytes p) :: moves)) [] →
        (Receiver.Finishes
          (Receiver.actor.after d (.call (.pushSerialBytes (p ++ t)) :: moves)) t ↔
          d.machine.wire.KeepsAll p t) :=
  ⟨fun _ haccepted hdone => Sender.remainder_iff haccepted hdone,
    fun _ _ hmoves haccepted hdone => Receiver.remainder_iff hmoves haccepted hdone⟩

/-! ### Concrete batches -/

def SenderAction.terminalBytes? : SenderAction → Option (List UInt8)
  | .batchCompleted _ bytes => some bytes
  | _ => none

def ReceiverAction.terminalBytes? : ReceiverAction → Option (List UInt8)
  | .batchCompleted _ bytes => some bytes
  | _ => none

theorem Sender.completes_of_last {s : Sender} {bytes : List UInt8} (hs : s.isTerminal = true)
    (h : s.actions.getLast?.bind SenderAction.terminalBytes? = some bytes) :
    s.Completes bytes := by
  obtain ⟨a, ha, hbytes⟩ := Option.bind_eq_some_iff.mp h
  refine ⟨isTerminal_iff.mp hs, ?_⟩
  cases a with
  | batchCompleted summary bytes' =>
      obtain rfl := Option.some.inj hbytes
      exact ⟨summary, ha⟩
  | _ => cases hbytes

theorem Receiver.completes_of_last {r : Receiver} {bytes : List UInt8} (hr : r.isTerminal = true)
    (h : r.actions.getLast?.bind ReceiverAction.terminalBytes? = some bytes) :
    r.Completes bytes := by
  obtain ⟨a, ha, hbytes⟩ := Option.bind_eq_some_iff.mp h
  refine ⟨isTerminal_iff.mp hr, ?_⟩
  cases a with
  | batchCompleted summary bytes' =>
      obtain rfl := Option.some.inj hbytes
      exact ⟨summary, ha⟩
  | _ => cases hbytes

def finishHeader : Header := ⟨.finish, 0, 0, 0, 0⟩

/-- The sender of one empty file, after the receiver has passed the file over. -/
def skippedSender : Sender :=
  ((emptyFileSender.pushSerialBytes (encodeHexHeader Receiver.receiverInit)).1.pushSerialBytes
    (encodeHexHeader ⟨.skip, 0, 0, 0, 0⟩)).1

/-- A batch without files, as the receiver reads it. -/
def emptyBatch : List UInt8 := encodeHexHeader finishHeader ++ overAndOut

theorem remainder_exact_prompt :
    ((skippedSender.pushSerialBytes (encodeHexHeader finishHeader ++ [0x24, 0x20])).1.Completes
      [0x24, 0x20] ↔ skippedSender.wire.KeepsAll (encodeHexHeader finishHeader) [0x24, 0x20]) ∧
    (Receiver.Finishes (Receiver.actor.after ⟨Receiver.new .default, []⟩
      [.call (.pushSerialBytes (emptyBatch ++ [0x24, 0x20]))]) [0x24, 0x20] ↔
        (Receiver.new .default).wire.KeepsAll emptyBatch [0x24, 0x20]) := by
  refine ⟨(remainder_exact _ _).1 skippedSender (by decide)
      (Sender.completes_of_last (by decide) (by decide)),
    (remainder_exact _ _).2 ⟨Receiver.new .default, []⟩ [] (by simp) (by decide) ?_⟩
  exact Receiver.Completes.finishes
    (Receiver.completes_of_last (by decide) (by decide)) []

/-- The character U+2460 in UTF-8: its second byte is an XON with parity. -/
def circledOne : List UInt8 := [0xe2, 0x91, 0xa0]

/-- A byte of a character after the batch is lost. -/
theorem circledOne_cut :
    containsRemoteCancel circledOne = false ∧
      ((Receiver.new .default).pushSerialBytes (emptyBatch ++ circledOne)).2 = .ok () ∧
      ((Receiver.new .default).pushSerialBytes emptyBatch).1.Completes [] ∧
      ((Receiver.new .default).pushSerialBytes (emptyBatch ++ circledOne)).1.Completes
        [0xe2, 0xa0] ∧
      ¬ ((Receiver.new .default).pushSerialBytes (emptyBatch ++ circledOne)).1.Completes
        circledOne := by
  have hcut : ((Receiver.new .default).pushSerialBytes (emptyBatch ++ circledOne)).1.Completes
      [0xe2, 0xa0] := Receiver.completes_of_last (by decide) (by decide)
  refine ⟨by decide, by decide,
    Receiver.completes_of_last (by decide) (by decide), hcut, fun h => ?_⟩
  have heq := (hcut.finishes []).unique (h.finishes [])
  exact absurd heq (by decide)

end Netcatty.Serial.Zmodem
