import Netcatty.Library.Monitor
import Netcatty.Serial.Zmodem.ReceiverSteps

/-! # The receiver delivers files in one piece

The driver of a receiver takes every action off the queue after each of its calls.  `Ledger` keeps
the books of such a driver: the file that is offered, the bytes it has confirmed, the files that are
complete.  `ledger` says which events are in order, and `deliveries_in_order` that every run of the
receiver is. -/

set_option maxRecDepth 8000

namespace Netcatty.Serial.Zmodem

open Netcatty.Loop Netcatty.Runs Netcatty.Watch

/-! ### The books of the driver -/

inductive ReceiverEvent where
  /-- `accept_file` has returned without an error. -/
  | accepted
  /-- `skip_file` has returned without an error. -/
  | skipped
  /-- `confirm_file_write` has returned without an error. -/
  | confirmed (bytes : ℕ)
  | emitted (action : ReceiverAction)

structure Ledger where
  /-- The last file that was offered. -/
  offered : Option (ℕ × FileMetadata) := none
  accepted : Bool := false
  /-- The bytes confirmed since the file was accepted. -/
  confirmed : ℕ := 0
  completed : List ℕ := []

namespace Ledger

def next (l : Ledger) : ReceiverEvent → Ledger
  | .accepted => { l with accepted := true, confirmed := 0 }
  | .confirmed bytes => { l with confirmed := l.confirmed + bytes }
  | .emitted (.offerFile fileIndex metadata) =>
    { l with offered := some (fileIndex, metadata), accepted := false, confirmed := 0 }
  | .emitted (.fileCompleted summary) =>
    { l with completed := l.completed ++ [summary.fileIndex] }
  | _ => l

/-- What is in order. -/
def Allows (l : Ledger) : ReceiverEvent → Prop
  | .accepted => l.offered.isSome ∧ l.accepted = false
  | .confirmed bytes =>
    ∃ fileIndex metadata, l.offered = some (fileIndex, metadata) ∧ l.accepted = true ∧
      l.confirmed + bytes ≤ metadata.totalBytes
  | .emitted (.offerFile fileIndex _) =>
    fileIndex ∉ l.completed ∧ ∀ other metadata, l.offered = some (other, metadata) → other < fileIndex
  | .emitted (.writeFile fileIndex offset bytes) =>
    ∃ metadata, l.offered = some (fileIndex, metadata) ∧ l.accepted = true ∧
      offset = l.confirmed ∧ offset + bytes.length ≤ metadata.totalBytes ∧ fileIndex ∉ l.completed
  | .emitted (.fileCompleted summary) =>
    ∃ metadata, l.offered = some (summary.fileIndex, metadata) ∧ l.accepted = true ∧
      l.confirmed = metadata.totalBytes ∧ summary.totalBytes = metadata.totalBytes ∧
      summary.transferredBytes = l.confirmed ∧ summary.fileIndex ∉ l.completed
  | _ => True

end Ledger

def ledger : Monitor Ledger ReceiverEvent where
  init := {}
  next := Ledger.next
  allowed := Ledger.Allows

/-! ### Runs with a drained queue -/

structure DrainedReceiver where
  receiver : Receiver
  history : List ReceiverEvent

namespace Receiver

def emitted (r : Receiver) : List ReceiverEvent := r.actions.map .emitted

/-- What the driver knows from the call itself. -/
def callEvents (c : ReceiverCall) (result : Except Error Unit) : List ReceiverEvent :=
  match c, result with
  | .acceptFile, .ok () => [.accepted]
  | .skipFile, .ok () => [.skipped]
  | .confirmFileWrite writtenBytes, .ok () => [.confirmed writtenBytes]
  | _, _ => []

def drain (r : Receiver) : Receiver := { r with actions := [] }

end Receiver

namespace DrainedReceiver

/-- Take everything off the queue. -/
def drain (r : Receiver) (history : List ReceiverEvent) : DrainedReceiver :=
  ⟨r.drain, history ++ r.emitted⟩

def start (config : Config) : DrainedReceiver := drain (.new config) []

/-- A call, after which the queue is drained. -/
def Step (d : DrainedReceiver) (c : ReceiverCall) (d' : DrainedReceiver) : Prop :=
  d' = drain (d.receiver.call c).1
    (d.history ++ Receiver.callEvents c (d.receiver.call c).2)

end DrainedReceiver

/-! ### The receiver and the books agree -/

namespace Receiver

/-- The books name no file beyond the current one. -/
structure Bounded (l : Ledger) (r : Receiver) : Prop where
  completed : ∀ i ∈ l.completed, i < r.fileIndex
  offered : ∀ i m, l.offered = some (i, m) → i ≤ r.fileIndex

/-- The receiver is between files. -/
def Idle (l : Ledger) (r : Receiver) : Prop :=
  r.current = none ∧ ∀ i m, l.offered = some (i, m) → i < r.fileIndex

/-- The current file is the one on offer. -/
def Offering (l : Ledger) (r : Receiver) : Prop :=
  ∃ metadata, r.current = some metadata ∧ l.offered = some (r.fileIndex, metadata) ∧
    l.accepted = false

/-- The current file has been accepted, and all that was written is confirmed; `due` bytes are with
the driver. -/
def Receiving (l : Ledger) (r : Receiver) (due : ℕ) : Prop :=
  ∃ metadata, r.current = some metadata ∧ l.offered = some (r.fileIndex, metadata) ∧
    l.accepted = true ∧ l.confirmed = r.written ∧ r.written + due ≤ metadata.totalBytes

/-- What the state says about the books. -/
def Phase (l : Ledger) (r : Receiver) : Prop :=
  match r.state with
  | .awaitHeader _ | .awaitSenderInitData _ _ | .awaitMetadata _ _ | .awaitOverAndOut _ => Idle l r
  | .awaitAcceptance => Offering l r
  | .awaitDataHeader _ | .awaitData _ _ | .awaitEndOfFile _ => Receiving l r 0
  | .awaitSink exactBytes _ _ _ => Receiving l r exactBytes
  | .terminal => True

/-- The history with the queue is in order, and the receiver is where the books say. -/
structure InOrder (base : List ReceiverEvent) (r : Receiver) : Prop where
  obeys : Obeys ledger (base ++ r.emitted)
  bounded : Bounded (after ledger (base ++ r.emitted)) r
  bounded_base : Bounded (after ledger base) r
  phase : Phase (after ledger (base ++ r.emitted)) r

/-- An action that the books ignore. -/
def Unbooked (a : ReceiverAction) : Prop := Neutral ledger (.emitted a)

theorem unbooked_write (bytes : List UInt8) : Unbooked (.write bytes) := fun _ => ⟨trivial, rfl⟩
theorem unbooked_progress (p : Progress) : Unbooked (.progress p) := fun _ => ⟨trivial, rfl⟩
theorem unbooked_failed (e : Error) : Unbooked (.failed e) := fun _ => ⟨trivial, rfl⟩
theorem unbooked_beginFile (i : ℕ) (m : FileMetadata) : Unbooked (.beginFile i m) :=
  fun _ => ⟨trivial, rfl⟩
theorem unbooked_batchCompleted (s : BatchSummary) (bytes : List UInt8) :
    Unbooked (.batchCompleted s bytes) :=
  fun _ => ⟨trivial, rfl⟩

variable {base : List ReceiverEvent} {r : Receiver}

theorem emitted_append (as : List ReceiverAction) :
    (r.append as).emitted = r.emitted ++ as.map .emitted := by
  simp [emitted]

theorem after_append {as : List ReceiverAction} (h : ∀ a ∈ as, Unbooked a) :
    after ledger (base ++ (r.append as).emitted) = after ledger (base ++ r.emitted) := by
  rw [emitted_append, ← List.append_assoc]
  refine after_append_neutral fun event he => ?_
  obtain ⟨a, ha, rfl⟩ := List.mem_map.mp he
  exact h a ha

theorem obeys_append {as : List ReceiverAction} (h : ∀ a ∈ as, Unbooked a)
    (hr : Obeys ledger (base ++ r.emitted)) :
    Obeys ledger (base ++ (r.append as).emitted) := by
  rw [emitted_append, ← List.append_assoc]
  refine obeys_append_neutral hr fun event he => ?_
  obtain ⟨a, ha, rfl⟩ := List.mem_map.mp he
  exact h a ha

/-- Actions that the books ignore, and a state that agrees with them. -/
theorem InOrder.send (h : InOrder base r) {as : List ReceiverAction} (has : ∀ a ∈ as, Unbooked a)
    {st : ReceiverState} (hphase : Phase (after ledger (base ++ r.emitted)) (r.setState st)) :
    InOrder base ((r.append as).setState st) := by
  have hafter : after ledger (base ++ (r.append as).emitted) = after ledger (base ++ r.emitted) :=
    after_append has
  refine ⟨obeys_append has h.obeys, ?_, ⟨h.bounded_base.completed, h.bounded_base.offered⟩, ?_⟩
  · show Bounded (after ledger (base ++ (r.append as).emitted)) _
    rw [hafter]
    exact ⟨h.bounded.completed, h.bounded.offered⟩
  · show Phase (after ledger (base ++ (r.append as).emitted)) _
    rw [hafter]
    exact hphase

/-- A queue that holds nothing of the books, after an overflow. -/
theorem inOrder_of_unbooked (hbase : Obeys ledger base) (hb : Bounded (after ledger base) r)
    (has : ∀ a ∈ r.actions, Unbooked a) (hphase : Phase (after ledger base) r) :
    InOrder base r := by
  have hneutral : ∀ event ∈ r.emitted, Neutral ledger event := by
    intro event he
    obtain ⟨a, ha, rfl⟩ := List.mem_map.mp he
    exact has a ha
  have hafter : after ledger (base ++ r.emitted) = after ledger base :=
    after_append_neutral hneutral
  refine ⟨obeys_append_neutral hbase hneutral, ?_, hb, ?_⟩
  · rw [hafter]
    exact hb
  · rw [hafter]
    exact hphase

theorem InOrder.fail (h : InOrder base r) (e : Error) : InOrder base (r.fail e) := by
  by_cases hroom : r.Room 1
  · rw [Receiver.fail, queue_of_room hroom]
    exact h.send (by simpa using unbooked_failed e) trivial
  · rw [Receiver.fail, queue_of_full hroom]
    exact inOrder_of_unbooked h.obeys.left
      ⟨h.bounded_base.completed, h.bounded_base.offered⟩
      (by simpa [setState] using unbooked_failed _) trivial

/-- One action that the books ignore. -/
theorem InOrder.sendOne (h : InOrder base r) (hroom : r.Room 1) {a : ReceiverAction}
    (ha : Unbooked a) {st : ReceiverState}
    (hphase : Phase (after ledger (base ++ r.emitted)) (r.setState st)) :
    InOrder base ((r.queue a).setState st) := by
  rw [queue_of_room hroom]
  exact h.send (by simpa using ha) hphase

theorem InOrder.withWire (h : InOrder base r) (wire : WireDecoder) :
    InOrder base { r with wire } :=
  ⟨h.obeys, ⟨h.bounded.completed, h.bounded.offered⟩,
    ⟨h.bounded_base.completed, h.bounded_base.offered⟩, h.phase⟩

/-- A change of state alone. -/
theorem InOrder.move (h : InOrder base r) {st : ReceiverState}
    (hphase : Phase (after ledger (base ++ r.emitted)) (r.setState st)) :
    InOrder base (r.setState st) :=
  ⟨h.obeys, ⟨h.bounded.completed, h.bounded.offered⟩,
    ⟨h.bounded_base.completed, h.bounded_base.offered⟩, hphase⟩

/-- What the books say in a given state. -/
theorem InOrder.at (h : InOrder base r) {st : ReceiverState} (hr : r.state = st) :
    Phase (after ledger (base ++ r.emitted)) (r.setState st) := by
  have := h.phase
  unfold Phase at this ⊢
  rwa [hr] at this

/-! ### One round -/

theorem InOrder.sendReceiverInit (h : InOrder base r) (hroom : r.Room 1)
    (hidle : Idle (after ledger (base ++ r.emitted)) r) (attempts : ℕ) :
    InOrder base (r.sendReceiverInit attempts) :=
  h.sendOne hroom (unbooked_write _) hidle

theorem InOrder.sendFinish (h : InOrder base r) (hroom : r.Room 1)
    (hidle : Idle (after ledger (base ++ r.emitted)) r) (attempts : ℕ) :
    InOrder base (r.sendFinish attempts) :=
  h.sendOne hroom (unbooked_write _) hidle

theorem InOrder.sendReceiverPosition (h : InOrder base r) (hroom : r.Room 1)
    (hreceiving : Receiving (after ledger (base ++ r.emitted)) r 0) (attempts : ℕ) :
    InOrder base (r.sendReceiverPosition attempts) := by
  unfold Receiver.sendReceiverPosition
  split
  · exact h.fail _
  · exact h.sendOne hroom (unbooked_write _) hreceiving

theorem InOrder.retry (h : InOrder base r) {send : Receiver → ℕ → Receiver}
    (hsend : ∀ n, InOrder base (send r n)) (error : Error) (attempts : ℕ) :
    InOrder base (Receiver.retry error send r attempts) := by
  unfold Receiver.retry
  split
  · exact h.fail _
  · exact hsend _

theorem InOrder.recoverCorruptInput (h : InOrder base r) (hroom : r.Room 1) :
    InOrder base r.recoverCorruptInput := by
  have hw := h.withWire r.wire.reset
  unfold Receiver.recoverCorruptInput
  simp only
  split
  · rename_i hr
    exact hw.retry (hw.sendReceiverPosition hroom (h.at hr)) _ _
  · rename_i hr
    exact hw.retry (hw.sendReceiverPosition hroom (h.at hr)) _ _
  · rename_i hr
    exact hw.retry (hw.sendReceiverPosition hroom (h.at hr)) _ _
  · rename_i hr
    exact hw.retry (hw.sendReceiverInit hroom (h.at hr)) _ _
  · rename_i hr
    exact hw.retry (hw.sendReceiverInit hroom (h.at hr)) _ _
  · rename_i hr
    exact hw.retry (hw.sendReceiverInit hroom (h.at hr)) _ _
  · exact hw.fail _

/-- The end of a file that overflows the queue leaves nothing of it there. -/
theorem inOrder_advance_of_unbooked (hbase : Obeys ledger base)
    (hb : Bounded (after ledger base) r) (hc : r.current = none)
    (has : ∀ a ∈ r.actions, Unbooked a) (attempts : ℕ) :
    InOrder base (r.advance.setState (.awaitHeader attempts)) := by
  refine inOrder_of_unbooked hbase ⟨fun i hi => ?_, fun i m hm => ?_⟩ has ⟨hc, fun i m hm => ?_⟩
  · exact (hb.completed i hi).trans (Nat.lt_succ_self _)
  · exact (hb.offered i m hm).trans (Nat.le_succ _)
  · exact Nat.lt_succ_of_le (hb.offered i m hm)

/-- The end of a file with room for its three actions. -/
theorem InOrder.completeFile (h : InOrder base r) (hroom : r.Room 3) {metadata : FileMetadata}
    (hoffered : (after ledger (base ++ r.emitted)).offered = some (r.fileIndex, metadata))
    (haccepted : (after ledger (base ++ r.emitted)).accepted = true)
    (hconfirmed : (after ledger (base ++ r.emitted)).confirmed = r.written)
    (hwritten : r.written = metadata.totalBytes) {p : ReceiverAction} (hp : Unbooked p)
    (attempts : ℕ) :
    InOrder base ((r.countCompleted.append
      [p, .fileCompleted ⟨r.fileIndex, metadata.totalBytes, r.written⟩]).advance.sendReceiverInit
        attempts) := by
  have hroom' : ∀ as, as.length = 2 → (r.countCompleted.append as).advance.Room 1 := by
    intro as has
    refine (room_append (r := r.countCompleted) as).mpr ?_
    rw [has]
    exact hroom
  rw [Receiver.sendReceiverInit, queue_of_room (hroom' _ rfl)]
  generalize hw : ReceiverAction.write _ = w
  have hw' : Unbooked w := hw ▸ unbooked_write _
  let done : ReceiverEvent :=
    .emitted (.fileCompleted ⟨r.fileIndex, metadata.totalBytes, r.written⟩)
  have hemitted : base ++ (((r.countCompleted.append
      [p, .fileCompleted ⟨r.fileIndex, metadata.totalBytes, r.written⟩]).advance.append
        [w]).setState (.awaitHeader attempts)).emitted =
          ((base ++ r.emitted ++ [.emitted p]) ++ [done]) ++ [.emitted w] := by
    simp [emitted, countCompleted, advance, done]
  have hafter₁ : after ledger (base ++ r.emitted ++ [.emitted p]) =
      after ledger (base ++ r.emitted) := by
    rw [after_concat]
    exact (hp _).2
  have hallowed : ledger.allowed (after ledger (base ++ r.emitted ++ [.emitted p])) done := by
    rw [hafter₁]
    exact ⟨metadata, hoffered, haccepted, hconfirmed.trans hwritten, rfl, hconfirmed.symm,
      fun hmem => Nat.lt_irrefl _ (h.bounded.completed _ hmem)⟩
  have hafter : after ledger (((base ++ r.emitted ++ [.emitted p]) ++ [done]) ++ [.emitted w]) =
      (after ledger (base ++ r.emitted)).next done := by
    rw [after_concat, after_concat, hafter₁]
    exact (hw' _).2
  have hobeys : Obeys ledger (base ++ r.emitted ++ [.emitted p]) :=
    obeys_concat.mpr ⟨h.obeys, (hp _).1⟩
  refine ⟨?_, ?_, ?_, ?_⟩
  · rw [hemitted]
    exact obeys_concat.mpr ⟨obeys_concat.mpr ⟨hobeys, hallowed⟩, (hw' _).1⟩
  · rw [hemitted, hafter]
    refine ⟨fun i hi => ?_, fun i m hm => (h.bounded.offered i m hm).trans (Nat.le_succ _)⟩
    rcases List.mem_append.mp hi with hi | hi
    · exact (h.bounded.completed i hi).trans (Nat.lt_succ_self _)
    · rw [List.mem_singleton.mp hi]
      exact Nat.lt_succ_self _
  · exact ⟨fun i hi => (h.bounded_base.completed i hi).trans (Nat.lt_succ_self _),
      fun i m hm => (h.bounded_base.offered i m hm).trans (Nat.le_succ _)⟩
  · rw [hemitted, hafter]
    exact ⟨rfl, fun i m hm => Nat.lt_succ_of_le (h.bounded.offered i m hm)⟩

/-- **The end of a file is in order**, also where the queue overflows on the way. -/
theorem InOrder.handleEndOfFile (h : InOrder base r) (hroom : r.Room 1)
    (hreceiving : Receiving (after ledger (base ++ r.emitted)) r 0) (offset : ℕ) :
    InOrder base (r.handleEndOfFile offset) := by
  obtain ⟨metadata, hc, hoffered, haccepted, hconfirmed, hle⟩ := hreceiving
  by_cases hm : r.Matches metadata offset
  · have hp : Unbooked (r.completeProgress metadata) := unbooked_progress _
    have hbase := h.obeys.left
    have hb : ∀ u : Receiver, u.fileIndex = r.fileIndex → Bounded (after ledger base) u :=
      fun u hu => ⟨by rw [hu]; exact h.bounded_base.completed,
        by rw [hu]; exact h.bounded_base.offered⟩
    have hcount : ∀ n, r.countCompleted.Room n ↔ r.Room n := fun _ => Iff.rfl
    rw [handleEndOfFile_of_matches hc hm, queue_of_room ((hcount 1).mpr hroom)]
    by_cases h₂ : r.Room 2
    · rw [queue_of_room ((room_append _).mpr ((hcount 2).mpr h₂)), append_append]
      by_cases h₃ : r.Room 3
      · exact h.completeFile h₃ hoffered haccepted hconfirmed hm.2 hp 1
      · -- the initialisation finds the queue full
        have hfull : ∀ as, as.length = 2 → ¬ (r.countCompleted.append as).advance.Room 1 := by
          intro as has hr
          have hr' := (room_append (r := r.countCompleted) as).mp hr
          rw [has] at hr'
          exact h₃ hr'
        rw [Receiver.sendReceiverInit, queue_of_full (hfull _ rfl)]
        exact inOrder_advance_of_unbooked (r := { r.countCompleted with
          actions := [.failed (.actionQueueFull maxPendingActions)] }) hbase (hb _ rfl) rfl
            (by simpa using unbooked_failed _) 1
    · -- the completion finds the queue full, and the initialisation follows the failure
      have hfull : ∀ a, ¬ (r.countCompleted.append [a]).Room 1 := fun a hr =>
        h₂ ((room_append _).mp hr)
      rw [queue_of_full (hfull _), Receiver.sendReceiverInit, queue_of_room (by
        show 1 + 1 ≤ maxPendingActions
        decide)]
      exact inOrder_advance_of_unbooked (r := { r.countCompleted with
        actions := [.failed (.actionQueueFull maxPendingActions), .write _] }) hbase (hb _ rfl) rfl
          (by simpa using ⟨unbooked_failed _, unbooked_write _⟩) 1
  · rw [handleEndOfFile_of_not_matches hc hm]
    exact h.retry (h.sendReceiverPosition hroom
      ⟨metadata, hc, hoffered, haccepted, hconfirmed, hle⟩) _ _

theorem InOrder.handleReceiverHeader (h : InOrder base r) (hroom : r.Room 1)
    (decoded : DecodedHeader) : InOrder base (r.handleReceiverHeader decoded) := by
  unfold Receiver.handleReceiverHeader
  simp only
  split
  · exact h.fail _
  split
  · rename_i hr
    have hidle : Idle (after ledger (base ++ r.emitted)) r := h.at hr
    split
    · exact h.sendReceiverInit hroom hidle _
    · exact h.move hidle
    · exact h.move hidle
    · exact h.sendFinish hroom hidle _
    · rw [queue_of_room hroom]
      exact h.send (by simpa using unbooked_write _) h.phase
    · exact h.move hidle
  · rename_i hr
    have hreceiving : Receiving (after ledger (base ++ r.emitted)) r 0 := h.at hr
    split
    · split
      · exact h.move hreceiving
      · exact h.retry (h.sendReceiverPosition hroom hreceiving) _ _
    · exact h.handleEndOfFile hroom hreceiving _
    · exact h.move hreceiving
  · rename_i hr
    have hreceiving : Receiving (after ledger (base ++ r.emitted)) r 0 := h.at hr
    split
    · exact h.handleEndOfFile hroom hreceiving _
    · split
      · exact h.move hreceiving
      · exact h.move hreceiving
    · exact h.move hreceiving
  · exact h.fail _

/-- The offer of a file is in order between files. -/
theorem InOrder.offerFile (h : InOrder base r) (hroom : r.Room 1)
    (hidle : Idle (after ledger (base ++ r.emitted)) r) (metadata : FileMetadata) :
    InOrder base (((r.noteOffer metadata).queue (.offerFile r.fileIndex metadata)).setState
      .awaitAcceptance) := by
  rw [queue_of_room (r := r.noteOffer metadata) hroom]
  have hallowed : ledger.allowed (after ledger (base ++ r.emitted))
      (.emitted (.offerFile r.fileIndex metadata)) :=
    ⟨fun hmem => Nat.lt_irrefl _ (h.bounded.completed _ hmem), hidle.2⟩
  have hemitted : base ++ (((r.noteOffer metadata).append
      [.offerFile r.fileIndex metadata]).setState .awaitAcceptance).emitted =
        (base ++ r.emitted) ++ [.emitted (.offerFile r.fileIndex metadata)] := by
    simp [emitted, noteOffer]
  refine ⟨?_, ?_, ⟨h.bounded_base.completed, h.bounded_base.offered⟩, ?_⟩
  · rw [hemitted]
    exact obeys_concat.mpr ⟨h.obeys, hallowed⟩
  · rw [hemitted, after_concat]
    refine ⟨h.bounded.completed, fun i m hm => ?_⟩
    have : r.fileIndex = i := congrArg Prod.fst (Option.some.inj hm)
    exact this.symm.le
  · rw [hemitted, after_concat]
    exact ⟨metadata, rfl, rfl, rfl⟩

/-- The write of a subpacket that fits is in order. -/
theorem InOrder.writeFile (h : InOrder base r) (hroom : r.Room 1) {payload : List UInt8}
    (hreceiving : Receiving (after ledger (base ++ r.emitted)) r payload.length)
    (frameEnd : FrameEnd) (checksum : Checksum) (attempts : ℕ) :
    InOrder base ((r.queue (.writeFile r.fileIndex r.written payload)).setState
      (.awaitSink payload.length frameEnd checksum attempts)) := by
  rw [queue_of_room hroom]
  obtain ⟨metadata, hc, hoffered, haccepted, hconfirmed, hle⟩ := hreceiving
  have hallowed : ledger.allowed (after ledger (base ++ r.emitted))
      (.emitted (.writeFile r.fileIndex r.written payload)) :=
    ⟨metadata, hoffered, haccepted, hconfirmed.symm, hle,
      fun hmem => Nat.lt_irrefl _ (h.bounded.completed _ hmem)⟩
  have hemitted : base ++ ((r.append [.writeFile r.fileIndex r.written payload]).setState
      (.awaitSink payload.length frameEnd checksum attempts)).emitted =
        (base ++ r.emitted) ++ [.emitted (.writeFile r.fileIndex r.written payload)] := by
    simp [emitted]
  refine ⟨?_, ?_, ⟨h.bounded_base.completed, h.bounded_base.offered⟩, ?_⟩
  · rw [hemitted]
    exact obeys_concat.mpr ⟨h.obeys, hallowed⟩
  · rw [hemitted, after_concat]
    exact ⟨h.bounded.completed, h.bounded.offered⟩
  · rw [hemitted, after_concat]
    exact ⟨metadata, hc, hoffered, haccepted, hconfirmed, hle⟩

theorem InOrder.handleReceiverSubpacket (h : InOrder base r) (hroom : r.Room 1)
    (packet : Subpacket) (checksum : Checksum) :
    InOrder base (r.handleReceiverSubpacket packet checksum) := by
  unfold Receiver.handleReceiverSubpacket
  split
  · rename_i hr
    have hidle : Idle (after ledger (base ++ r.emitted)) r := h.at hr
    simp only
    split
    · exact h.sendOne hroom (unbooked_write _) hidle
    · exact h.move hidle
  · rename_i hr
    split
    · exact h.fail _
    split
    · exact h.fail _
    split
    · exact h.fail _
    · exact h.offerFile hroom (h.at hr) _
  · rename_i hr
    obtain ⟨metadata, hc, hoffered, haccepted, hconfirmed, hle⟩ :
        Receiving (after ledger (base ++ r.emitted)) r 0 := h.at hr
    simp only [hc]
    split
    · exact h.fail _
    · rename_i hfits
      have hmax : metadata.totalBytes < maxU64 :=
        metadata.totalBytes_le.trans_lt (show maxFileBytes < maxU64 by decide)
      have hsum : r.written + packet.payload.length ≤ metadata.totalBytes := by
        unfold saturatingAdd at hfits
        omega
      exact h.writeFile hroom ⟨metadata, hc, hoffered, haccepted, hconfirmed, hsum⟩ _ _ _
  · exact h.fail _

theorem InOrder.completeBatch (h : InOrder base r) (hroom : r.Room 1) :
    InOrder base r.completeBatch :=
  (h.withWire {}).sendOne hroom (unbooked_batchCompleted _ _) trivial

/-- **A round of the pump is in order.** -/
theorem InOrder.pumpRound (h : InOrder base r) (hroom : r.Room 1) :
    InOrder base r.pumpRound.1 := by
  have hheader : InOrder base r.pumpHeader.1 := by
    unfold Receiver.pumpHeader
    split
    · rename_i wire decoded _
      exact (h.withWire wire).handleReceiverHeader hroom decoded
    · exact h.withWire _
    · exact (h.withWire _).fail _
    · exact (h.withWire _).recoverCorruptInput hroom
    · exact (h.withWire _).recoverCorruptInput hroom
    · exact (h.withWire _).fail _
  have hsubpacket : ∀ checksum, InOrder base (r.pumpSubpacket checksum).1 := by
    intro checksum
    unfold Receiver.pumpSubpacket
    split
    · rename_i wire packet _
      exact (h.withWire wire).handleReceiverSubpacket hroom packet checksum
    · exact h.withWire _
    · exact (h.withWire _).recoverCorruptInput hroom
    · exact (h.withWire _).recoverCorruptInput hroom
    · exact (h.withWire _).fail _
    · exact (h.withWire _).fail _
  have hover : InOrder base r.pumpOverAndOut.1 := by
    unfold Receiver.pumpOverAndOut
    split
    · exact (h.withWire _).completeBatch hroom
    · exact h.withWire _
    · exact (h.withWire _).fail _
  unfold Receiver.pumpRound
  split
  · exact hheader
  · exact hheader
  · exact hheader
  · exact hsubpacket _
  · exact hsubpacket _
  · exact hsubpacket _
  · exact hover
  all_goals exact h

theorem InOrder.pump (h : InOrder base r) : InOrder base r.pump :=
  loop_invariant' (fun _ hrun ht => ht.pumpRound (room_one_of_running hrun)) h

/-! ### Calls -/

variable {history : List ReceiverEvent}

theorem room_of_nil (hnil : r.actions = []) {n : ℕ} (hn : n ≤ maxPendingActions) : r.Room n := by
  unfold Room
  rw [hnil]
  simpa using hn

/-- An event of the call itself comes before everything the call queues. -/
theorem InOrder.note (h : InOrder history r) (hnil : r.actions = []) {event : ReceiverEvent}
    {u : Receiver} (hu : u.actions = []) (hindex : u.fileIndex = r.fileIndex)
    (hallowed : ledger.allowed (after ledger history) event)
    (hb : Bounded (ledger.next (after ledger history) event) r)
    (hphase : Phase (ledger.next (after ledger history) event) u) :
    InOrder (history ++ [event]) u := by
  have hemitted : ∀ {v : Receiver} {base : List ReceiverEvent}, v.actions = [] →
      base ++ v.emitted = base := by
    intro v base hv
    simp [emitted, hv]
  have hb' : Bounded (after ledger (history ++ [event])) u := by
    rw [after_concat]
    exact ⟨by rw [hindex]; exact hb.completed, by rw [hindex]; exact hb.offered⟩
  have hobeys := h.obeys
  rw [hemitted hnil] at hobeys
  refine ⟨?_, ?_, hb', ?_⟩
  · rw [hemitted hu]
    exact obeys_concat.mpr ⟨hobeys, hallowed⟩
  · rw [hemitted hu]
    exact hb'
  · rw [hemitted hu, after_concat]
    exact hphase

theorem InOrder.beginFile (h : InOrder history r) (hnil : r.actions = [])
    (hr : r.state = .awaitAcceptance) {metadata : FileMetadata} (hc : r.current = some metadata) :
    InOrder (history ++ [.accepted]) (r.beginFile metadata) := by
  have hemitted : history ++ r.emitted = history := by simp [emitted, hnil]
  obtain ⟨metadata', hc', hoffered, haccepted⟩ : Offering (after ledger (history ++ r.emitted)) r :=
    h.at hr
  have hbounded := h.bounded
  rw [hemitted] at hoffered haccepted hbounded
  obtain rfl : metadata' = metadata := Option.some.inj (hc'.symm.trans hc)
  have hreceiving : Receiving (ledger.next (after ledger history) .accepted) r.rewind 0 :=
    ⟨metadata', hc, hoffered, rfl, rfl, Nat.zero_le _⟩
  have hnoted : InOrder (history ++ [.accepted]) (r.rewind.setState (.awaitDataHeader 1)) :=
    h.note hnil hnil rfl ⟨by rw [hoffered]; rfl, haccepted⟩ ⟨hbounded.completed, hbounded.offered⟩
      hreceiving
  rw [beginFile_of_room (room_of_nil hnil (by decide))]
  refine hnoted.send ?_ hnoted.phase
  simpa [beginActions] using
    ⟨unbooked_beginFile _ _, unbooked_progress _, unbooked_write _⟩

theorem InOrder.dropFile (h : InOrder history r) (hnil : r.actions = []) :
    InOrder (history ++ [.skipped]) r.dropFile := by
  have hemitted : history ++ r.emitted = history := by simp [emitted, hnil]
  have hbounded := h.bounded
  have hobeys := h.obeys
  rw [hemitted] at hbounded hobeys
  have hafter : after ledger (history ++ [.skipped]) = after ledger history := by
    rw [after_concat]
    rfl
  have hnext : Bounded (after ledger (history ++ [.skipped])) r.passOver := by
    rw [hafter]
    exact ⟨fun i hi => (hbounded.completed i hi).trans (Nat.lt_succ_self _),
      fun i m hm => (hbounded.offered i m hm).trans (Nat.le_succ _)⟩
  rw [dropFile_of_room (room_of_nil hnil (by decide))]
  refine inOrder_of_unbooked (obeys_concat.mpr ⟨hobeys, trivial⟩)
    ⟨hnext.completed, hnext.offered⟩ ?_ ?_
  · simpa [passOver, hnil] using ⟨unbooked_write _, unbooked_write _⟩
  · rw [hafter]
    exact ⟨rfl, fun i m hm => Nat.lt_succ_of_le (hbounded.offered i m hm)⟩

theorem InOrder.reportWrite (h : InOrder history r) (hnil : r.actions = []) {exactBytes : ℕ}
    {frameEnd : FrameEnd} {checksum : Checksum} {attempts : ℕ}
    (hr : r.state = .awaitSink exactBytes frameEnd checksum attempts) {metadata : FileMetadata}
    (hc : r.current = some metadata) :
    InOrder (history ++ [.confirmed exactBytes])
      (reportWrite { r with written := r.written + exactBytes } metadata frameEnd checksum
        attempts) := by
  have hemitted : history ++ r.emitted = history := by simp [emitted, hnil]
  obtain ⟨metadata', hc', hoffered, haccepted, hconfirmed, hle⟩ :
      Receiving (after ledger (history ++ r.emitted)) r exactBytes := h.at hr
  have hbounded := h.bounded
  rw [hemitted] at hoffered haccepted hconfirmed hbounded
  obtain rfl : metadata' = metadata := Option.some.inj (hc'.symm.trans hc)
  let u : Receiver := { r with written := r.written + exactBytes }
  let st : ReceiverState :=
    if frameEnd.endsFrame then .awaitEndOfFile attempts else .awaitData checksum attempts
  have hreceiving : Receiving (ledger.next (after ledger history) (.confirmed exactBytes)) u 0 :=
    ⟨metadata', hc, hoffered, haccepted, congrArg (· + exactBytes) hconfirmed, hle⟩
  have hphase : ∀ l, Receiving l u 0 → Phase l (u.setState st) := by
    intro l hl
    simp only [st]
    split <;> exact hl
  have hnoted : InOrder (history ++ [.confirmed exactBytes]) (u.setState st) :=
    h.note hnil hnil rfl ⟨r.fileIndex, metadata', hoffered, haccepted, by rw [hconfirmed]; exact hle⟩
      ⟨hbounded.completed, hbounded.offered⟩ (hphase _ hreceiving)
  rw [reportWrite_of_room (r := u) (room_of_nil hnil (by split <;> decide))]
  refine hnoted.send ?_ hnoted.phase
  intro a ha
  unfold reportActions at ha
  rcases List.mem_cons.mp ha with rfl | ha
  · exact unbooked_progress _
  · split at ha
    · obtain rfl := List.mem_singleton.mp ha
      exact unbooked_write _
    · cases ha

theorem InOrder.onTimeout (h : InOrder history r) (hnil : r.actions = []) :
    InOrder history r.onTimeout.1 := by
  have hw := h.withWire r.wire.reset
  have hroom : r.Room 1 := room_of_nil hnil (by decide)
  unfold Receiver.onTimeout
  split
  · exact h
  simp only
  split
  · rename_i hr
    exact hw.retry (hw.sendReceiverInit hroom (h.at hr)) _ _
  · rename_i hr
    split
    · exact hw.fail _
    · exact hw.sendOne hroom (unbooked_write _) (h.at hr)
  · rename_i hr
    split
    · exact hw.fail _
    · exact hw.sendOne hroom (unbooked_write _) (h.at hr)
  · rename_i hr
    exact hw.retry (hw.sendReceiverPosition hroom (h.at hr)) _ _
  · rename_i hr
    exact hw.retry (hw.sendReceiverPosition hroom (h.at hr)) _ _
  · rename_i hr
    exact hw.retry (hw.sendReceiverPosition hroom (h.at hr)) _ _
  · rename_i hr
    exact hw.retry (hw.sendFinish hroom (h.at hr)) _ _
  all_goals exact hw

theorem InOrder.cancel (h : InOrder history r) (hnil : r.actions = []) :
    InOrder history r.cancel.1 := by
  have hroom : r.Room 1 := room_of_nil hnil (by decide)
  unfold Receiver.cancel
  split
  · exact h
  · rw [queue_of_room hroom]
    exact InOrder.fail (h.send (by simpa using unbooked_write _) h.phase) _

/-- **A call keeps the history in order.** -/
theorem InOrder.call (h : InOrder history r) (hnil : r.actions = []) (c : ReceiverCall) :
    InOrder (history ++ callEvents c (r.call c).2) (r.call c).1 := by
  cases hp : r.pumped c with
  | some u =>
      rw [call_of_pumped hp]
      refine InOrder.pump ?_
      cases c with
      | pushSerialBytes bytes =>
          simp only [pumped] at hp
          split_ifs at hp
          split at hp
          · obtain rfl := Option.some.inj hp
            simpa [callEvents] using h.withWire _
          · cases hp
      | acceptFile =>
          simp only [pumped] at hp
          split at hp
          · rename_i metadata hr hc
            obtain rfl := Option.some.inj hp
            exact h.beginFile hnil hr hc
          · cases hp
      | skipFile =>
          simp only [pumped] at hp
          split at hp
          · obtain rfl := Option.some.inj hp
            exact h.dropFile hnil
          · cases hp
      | confirmFileWrite writtenBytes =>
          simp only [pumped] at hp
          split at hp
          · rename_i hr hc
            split_ifs at hp with hw
            obtain ⟨rfl, -⟩ := hw
            obtain rfl := Option.some.inj hp
            exact h.reportWrite hnil hr hc
          · cases hp
      | onTimeout => cases hp
      | cancel => cases hp
  | none =>
      cases c with
      | pushSerialBytes bytes =>
          obtain ⟨e, he⟩ := pushSerialBytes_of_not_pumped hp
          rw [Receiver.call, he]
          simpa [callEvents] using h
      | acceptFile =>
          rw [Receiver.call, acceptFile_of_not_pumped hp]
          simpa [callEvents] using h
      | skipFile =>
          rw [Receiver.call, skipFile_of_not_pumped hp]
          simpa [callEvents] using h
      | confirmFileWrite writtenBytes =>
          rw [Receiver.call]
          rcases confirmFileWrite_of_not_pumped hp with ⟨e, he⟩ | ⟨e, he⟩ |
            ⟨frameEnd, checksum, attempts, hr, hsink⟩
          · rw [he]
            simpa [callEvents] using h
          · rw [he]
            simpa [callEvents] using h.fail e
          · -- the driver owes the write of a part of the current file that fits
            obtain ⟨metadata, hc, -, -, -, hle⟩ :
                Receiving (after ledger (history ++ r.emitted)) r writtenBytes := h.at hr
            rcases hsink with ⟨hnone, -⟩ | ⟨metadata', -, hc', hgt, -⟩
            · rw [hnone] at hc
              cases hc
            · obtain rfl := Option.some.inj (hc'.symm.trans hc)
              omega
      | onTimeout =>
          rw [Receiver.call]
          simpa [callEvents] using h.onTimeout hnil
      | cancel =>
          rw [Receiver.call]
          simpa [callEvents] using h.cancel hnil

theorem inOrder_new (config : Config) : InOrder [] (new config) := by
  have hroom : ∀ r : Receiver, r.actions = [] → r.Room 1 := fun r hr => room_of_nil hr (by decide)
  unfold new
  rw [sendReceiverInit_of_room (hroom _ rfl)]
  refine inOrder_of_unbooked obeys_nil ⟨?_, ?_⟩ ?_ ⟨rfl, ?_⟩
  · intro i hi
    cases hi
  · intro i m hm
    cases hm
  · simpa [append, setState] using unbooked_write _
  · intro i m hm
    cases hm

/-- The receiver with a drained queue goes on with the history it has. -/
theorem InOrder.drain (h : InOrder base r) : InOrder (base ++ r.emitted) r.drain := by
  have hnil : (base ++ r.emitted) ++ r.drain.emitted = base ++ r.emitted := by
    simp [emitted, Receiver.drain]
  refine ⟨?_, ?_, ⟨h.bounded.completed, h.bounded.offered⟩, ?_⟩
  · rw [hnil]
    exact h.obeys
  · rw [hnil]
    exact ⟨h.bounded.completed, h.bounded.offered⟩
  · rw [hnil]
    exact h.phase

end Receiver

/-- **A receiver delivers its files in one piece**: whatever bytes it is pushed and whatever its
driver decides, every write continues the bytes confirmed so far, no file grows beyond its size, and
a file is complete at most once, when all of it is confirmed. -/
theorem deliveries_in_order {config : Config} {calls : List ReceiverCall} {d : DrainedReceiver}
    (h : Run DrainedReceiver.Step (.start config) calls d) : Obeys ledger d.history := by
  have key : d.receiver.actions = [] ∧ Receiver.InOrder d.history d.receiver := by
    refine h.invariant (I := fun d => d.receiver.actions = [] ∧
      Receiver.InOrder d.history d.receiver) ⟨rfl, ?_⟩ ?_
    · exact (Receiver.inOrder_new config).drain
    · rintro d c _ ⟨hnil, hd⟩ rfl
      exact ⟨rfl, (hd.call hnil c).drain⟩
  exact key.2.obeys.left

/-- The run of a list of calls. -/
def DrainedReceiver.after (d : DrainedReceiver) (calls : List ReceiverCall) : DrainedReceiver :=
  calls.foldl (fun d c => drain (d.receiver.call c).1
    (d.history ++ Receiver.callEvents c (d.receiver.call c).2)) d

theorem DrainedReceiver.run_after (d : DrainedReceiver) (calls : List ReceiverCall) :
    Run Step d calls (d.after calls) := by
  induction calls using List.reverseRecOn with
  | nil => exact Run.refl
  | append_singleton calls c ih =>
      refine Run.snoc ih ?_
      simp [Step, after]

/-- A sender offers a file of one byte, sends it and ends it. -/
def oneByteCalls : List ReceiverCall :=
  [.pushSerialBytes (encodeHexHeader ⟨.file, 0, 0, 0, 1⟩ ++
      subpacketBytes [0x61, 0, 0x31, 0] .endAck .crc16 true),
    .acceptFile,
    .pushSerialBytes (encodeHexHeader (.withOffset .data 0) ++
      subpacketBytes [0x7f] .endNoAck .crc16 true),
    .confirmFileWrite 1,
    .pushSerialBytes (encodeHexHeader (.withOffset .endOfFile 1))]

theorem deliveries_in_order_oneByte :
    Obeys ledger (DrainedReceiver.after (.start .default) oneByteCalls).history ∧
      (after ledger (DrainedReceiver.after (.start .default) oneByteCalls).history).completed =
        [0] :=
  ⟨deliveries_in_order (DrainedReceiver.run_after _ _), by decide⟩

end Netcatty.Serial.Zmodem
