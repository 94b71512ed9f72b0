import Mathlib.Data.List.Infix
import Mathlib.Tactic.Common

/-! # Decoders of lines fed with chunks

A `LineProtocol` says what a decoder does at the end of a line: it changes its state and produces
events, or it refuses the line.  A `LineDecoder` collects the bytes of the line that has not ended
(lines end in LF, CR or CRLF), and `push` feeds it one chunk of a stream: the events of the chunk
come back together, so a refusal takes with it the events of the same chunk.  `nextEvent` hands the
events out one by one and reads a chunk when it has none left; `Delivers` is the whole conversation
with it, and `deliver` computes it (`delivers_iff`).

`read` feeds one byte after the other and keeps the events before a refusal, and `readLines` does
the same with the lines of the stream (`read_eq_readLines`).  Every cut into chunks ends like `read`
(`deliver_outcome`), and delivers its events where nothing is refused (`deliver_events`).  So the
cut shows in the texts of the events exactly where a line is refused after a text
(`cutIndependent_iff`). -/

namespace Netcatty.LineStream

variable {σ ε ο χ : Type}

abbrev Line := List UInt8

def lf : UInt8 := 10
def cr : UInt8 := 13

/-- What has been read of the line that has not ended, and the state between two lines. -/
structure Buffer (σ : Type) where
  state : σ
  line : Line
  skipLfAfterCr : Bool
  deriving DecidableEq

/-- What a decoder does with a line, with the end of the stream, and with too long a stream. -/
structure LineProtocol (σ ε ο : Type) where
  finishLine : σ → Line → Except ε (σ × List ο)
  done : σ → Bool
  finish : Buffer σ → Except ε Unit
  maxBytes : ℕ
  tooLarge : ε

structure LineDecoder (σ : Type) where
  totalBytes : ℕ
  buffer : Buffer σ
  deriving DecidableEq

namespace LineProtocol

variable (p : LineProtocol σ ε ο)

/-- The line of the buffer ends. -/
def endLine (b : Buffer σ) (skip : Bool) : Except ε (Buffer σ × List ο) :=
  (p.finishLine b.state b.line).map fun r => (⟨r.1, [], skip⟩, r.2)

/-- One byte. -/
def accept (b : Buffer σ) (byte : UInt8) : Except ε (Buffer σ × List ο) :=
  if b.skipLfAfterCr && byte == lf then .ok ({ b with skipLfAfterCr := false }, [])
  else if byte == lf then p.endLine b false
  else if byte == cr then p.endLine b true
  else .ok (⟨b.state, b.line ++ [byte], false⟩, [])

/-- The bytes of a chunk, up to the one that completes the stream. -/
def run : Buffer σ → List UInt8 → Except ε (Buffer σ × List ο)
  | b, [] => .ok (b, [])
  | b, byte :: bytes =>
      if p.done b.state then .ok (b, [])
      else do
        let (b, events) ← p.accept b byte
        let (b, more) ← run b bytes
        pure (b, events ++ more)

def push (d : LineDecoder σ) (chunk : List UInt8) : Except ε (LineDecoder σ × List ο) :=
  if p.maxBytes < d.totalBytes + chunk.length then .error p.tooLarge
  else do
    let (b, events) ← p.run d.buffer chunk
    pure (⟨d.totalBytes + chunk.length, b⟩, events)

end LineProtocol

/-! ### The stream of events -/

/-- A response that is being read: the chunks to come, and the events not handed out yet. -/
structure EventStream (σ ο : Type) where
  response : List (List UInt8)
  decoder : LineDecoder σ
  pending : List ο
  finished : Bool

namespace LineProtocol

variable (p : LineProtocol σ ε ο)

/-- Reads chunks until there is an event to hand out. -/
def nextEventFrom : List (List UInt8) → LineDecoder σ → Except ε (Option ο) × EventStream σ ο
  | [], d =>
      if p.done d.buffer.state then (.ok none, ⟨[], d, [], true⟩)
      else ((p.finish d.buffer).map fun _ => none, ⟨[], d, [], true⟩)
  | chunk :: response, d =>
      if p.done d.buffer.state then (.ok none, ⟨chunk :: response, d, [], true⟩)
      else match p.push d chunk with
        | .ok (d, event :: events) => (.ok (some event), ⟨response, d, events, false⟩)
        | .ok (d, []) => nextEventFrom response d
        | .error e => (.error e, ⟨response, d, [], true⟩)

/-- The next event, or `none` at the end. -/
def nextEvent (s : EventStream σ ο) : Except ε (Option ο) × EventStream σ ο :=
  match s.pending with
  | event :: events => (.ok (some event), { s with pending := events })
  | [] => if s.finished then (.ok none, s) else p.nextEventFrom s.response s.decoder

/-- `nextEvent` is called until it has no event: the events handed out, and how it ended. -/
inductive Delivers : EventStream σ ο → List ο → Except ε Unit → Prop
  | completed {s s'} : p.nextEvent s = (.ok none, s') → Delivers s [] (.ok ())
  | failed {s s' e} : p.nextEvent s = (.error e, s') → Delivers s [] (.error e)
  | event {s s' event events out} :
      p.nextEvent s = (.ok (some event), s') → Delivers s' events out →
        Delivers s (event :: events) out

/-- The stream at its start. -/
def openStream (d : LineDecoder σ) (chunks : List (List UInt8)) : EventStream σ ο :=
  ⟨chunks, d, [], false⟩

/-- How a stream that went through ends. -/
def conclude (b : Buffer σ) : Except ε Unit := if p.done b.state then .ok () else p.finish b

/-- The events of all the chunks, and how the stream ends. -/
def deliver : LineDecoder σ → List (List UInt8) → List ο × Except ε Unit
  | d, [] => ([], p.conclude d.buffer)
  | d, chunk :: chunks =>
      if p.done d.buffer.state then ([], .ok ())
      else match p.push d chunk with
        | .ok (d, events) => (events ++ (deliver d chunks).1, (deliver d chunks).2)
        | .error e => ([], .error e)

variable {p}

/-- A conversation has one course. -/
theorem Delivers.unique {s : EventStream σ ο} {events events' : List ο} {out out' : Except ε Unit}
    (h : p.Delivers s events out) (h' : p.Delivers s events' out') :
    events = events' ∧ out = out' := by
  induction h generalizing events' out' with
  | completed hn =>
      cases h' with
      | completed hn' => exact ⟨rfl, rfl⟩
      | failed hn' => rw [hn] at hn'; simp at hn'
      | event hn' _ => rw [hn] at hn'; simp at hn'
  | failed hn =>
      cases h' with
      | completed hn' => rw [hn] at hn'; simp at hn'
      | failed hn' =>
          rw [hn] at hn'
          simp only [Prod.mk.injEq, Except.error.injEq] at hn'
          exact ⟨rfl, by rw [hn'.1]⟩
      | event hn' _ => rw [hn] at hn'; simp at hn'
  | event hn _ ih =>
      cases h' with
      | completed hn' => rw [hn] at hn'; simp at hn'
      | failed hn' => rw [hn] at hn'; simp at hn'
      | event hn' hd' =>
          rw [hn] at hn'
          simp only [Prod.mk.injEq, Except.ok.injEq, Option.some.injEq] at hn'
          obtain ⟨rfl, rfl⟩ := hn'
          obtain ⟨rfl, rfl⟩ := ih hd'
          exact ⟨rfl, rfl⟩

/-- The pending events come first. -/
theorem delivers_pending {s : EventStream σ ο} {events : List ο} {out : Except ε Unit}
    (h : p.Delivers { s with pending := [] } events out) (pending : List ο) :
    p.Delivers { s with pending := pending } (pending ++ events) out := by
  induction pending with
  | nil => exact h
  | cons event pending ih => exact .event rfl ih

theorem delivers_of_eq {s t : EventStream σ ο} (hst : p.nextEvent s = p.nextEvent t)
    {events : List ο} {out : Except ε Unit} (h : p.Delivers t events out) :
    p.Delivers s events out := by
  cases h with
  | completed hn => exact .completed (hst.trans hn)
  | failed hn => exact .failed (hst.trans hn)
  | event hn hd => exact .event (hst.trans hn) hd

theorem delivers_deliver (chunks : List (List UInt8)) (d : LineDecoder σ) :
    p.Delivers (openStream d chunks) (p.deliver d chunks).1 (p.deliver d chunks).2 := by
  induction chunks generalizing d with
  | nil =>
      have hnext : p.nextEvent (openStream d []) = p.nextEventFrom [] d := rfl
      rw [nextEventFrom] at hnext
      unfold deliver conclude
      split
      · rw [if_pos ‹_›] at hnext
        exact .completed hnext
      · rw [if_neg ‹_›] at hnext
        cases hfinish : p.finish d.buffer with
        | ok u => rw [hfinish] at hnext; exact .completed hnext
        | error e => rw [hfinish] at hnext; exact .failed hnext
  | cons chunk chunks ih =>
      have hnext : p.nextEvent (openStream d (chunk :: chunks)) =
          p.nextEventFrom (chunk :: chunks) d := rfl
      rw [nextEventFrom] at hnext
      unfold deliver
      split
      · rw [if_pos ‹_›] at hnext
        exact .completed hnext
      · rw [if_neg ‹_›] at hnext
        cases hpush : p.push d chunk with
        | error e => rw [hpush] at hnext; exact .failed hnext
        | ok r =>
            obtain ⟨d', events⟩ := r
            rw [hpush] at hnext
            cases events with
            | nil => exact delivers_of_eq hnext (ih d')
            | cons event events =>
                exact .event hnext (delivers_pending (s := ⟨chunks, d', [], false⟩) (ih d') events)

/-- **The conversation with a stream delivers what `deliver` computes.** -/
theorem delivers_iff {d : LineDecoder σ} {chunks : List (List UInt8)} {events : List ο}
    {out : Except ε Unit} :
    p.Delivers (openStream d chunks) events out ↔ p.deliver d chunks = (events, out) := by
  constructor
  · intro h
    obtain ⟨h₁, h₂⟩ := (delivers_deliver chunks d).unique h
    exact Prod.ext h₁ h₂
  · intro h
    have := delivers_deliver (p := p) chunks d
    rwa [h] at this

end LineProtocol

/-! ### Byte by byte -/

namespace LineProtocol

variable (p : LineProtocol σ ε ο)

/-- One byte after the other; the events before a refusal are kept. -/
def read : Buffer σ → List UInt8 → List ο × Except ε (Buffer σ)
  | b, [] => ([], .ok b)
  | b, byte :: bytes =>
      if p.done b.state then ([], .ok b)
      else match p.accept b byte with
        | .ok (b, events) => (events ++ (read b bytes).1, (read b bytes).2)
        | .error e => ([], .error e)

variable {p}

theorem read_of_done {b : Buffer σ} (h : p.done b.state = true) (bytes : List UInt8) :
    p.read b bytes = ([], .ok b) := by
  cases bytes with
  | nil => rfl
  | cons byte bytes => simp only [read, h, if_true]

/-- A chunk gives all its events or none of them. -/
theorem run_eq_read (b : Buffer σ) (bytes : List UInt8) :
    p.run b bytes = (p.read b bytes).2.map fun b' => (b', (p.read b bytes).1) := by
  induction bytes generalizing b with
  | nil => rfl
  | cons byte bytes ih =>
      unfold run read
      split
      · rfl
      · cases haccept : p.accept b byte with
        | error e => rfl
        | ok r =>
            obtain ⟨b', events⟩ := r
            simp only [bind, Except.bind, ih b']
            cases (p.read b' bytes).2 with
            | error e => rfl
            | ok b'' => rfl

theorem read_append (b : Buffer σ) (xs ys : List UInt8) :
    p.read b (xs ++ ys) = match p.read b xs with
      | (events, .ok b') => (events ++ (p.read b' ys).1, (p.read b' ys).2)
      | (events, .error e) => (events, .error e) := by
  induction xs generalizing b with
  | nil => rfl
  | cons byte xs ih =>
      by_cases hdone : p.done b.state = true
      · rw [read_of_done hdone, read_of_done hdone]
        simp only [read_of_done hdone, List.nil_append]
      · simp only [List.cons_append, read, if_neg hdone]
        cases haccept : p.accept b byte with
        | error e => rfl
        | ok r =>
            obtain ⟨b', events⟩ := r
            simp only [ih b']
            rcases p.read b' xs with ⟨more, e | b''⟩
            · rfl
            · simp only [List.append_assoc]

/-! ### Chunk by chunk -/

/-- The decoder after `n` more bytes. -/
def advance (d : LineDecoder σ) (n : ℕ) (b : Buffer σ) : LineDecoder σ := ⟨d.totalBytes + n, b⟩

theorem push_eq_read {d : LineDecoder σ} {chunk : List UInt8}
    (h : d.totalBytes + chunk.length ≤ p.maxBytes) :
    p.push d chunk = (p.read d.buffer chunk).2.map fun b =>
      (advance d chunk.length b, (p.read d.buffer chunk).1) := by
  unfold push
  rw [if_neg (Nat.not_lt.mpr h), run_eq_read]
  cases (p.read d.buffer chunk).2 with
  | error e => rfl
  | ok b => rfl

/-- The end of a stream, given what is left after its last byte. -/
def outcome (p : LineProtocol σ ε ο) (r : Except ε (Buffer σ)) : Except ε Unit :=
  r.bind p.conclude

/-- **Every cut ends like the stream read byte by byte.** -/
theorem deliver_outcome (chunks : List (List UInt8)) {d : LineDecoder σ}
    (h : d.totalBytes + chunks.flatten.length ≤ p.maxBytes) :
    (p.deliver d chunks).2 = p.outcome (p.read d.buffer chunks.flatten).2 := by
  induction chunks generalizing d with
  | nil => rfl
  | cons chunk chunks ih =>
      rw [List.flatten_cons, List.length_append] at h
      unfold deliver
      split
      · rename_i hdone
        rw [read_of_done hdone]
        simp only [outcome, Except.bind, conclude, hdone, if_true]
      · rw [push_eq_read (by omega), List.flatten_cons, read_append]
        rcases hread : p.read d.buffer chunk with ⟨events, e | b⟩
        · rfl
        · exact ih (d := advance d chunk.length b) (by unfold advance; simp only; omega)

/-- A cut delivers the first of the events that are read byte by byte. -/
theorem deliver_prefix (chunks : List (List UInt8)) {d : LineDecoder σ}
    (h : d.totalBytes + chunks.flatten.length ≤ p.maxBytes) :
    (p.deliver d chunks).1 <+: (p.read d.buffer chunks.flatten).1 := by
  induction chunks generalizing d with
  | nil => exact List.nil_prefix
  | cons chunk chunks ih =>
      rw [List.flatten_cons, List.length_append] at h
      unfold deliver
      split
      · exact List.nil_prefix
      · rw [push_eq_read (by omega), List.flatten_cons, read_append]
        rcases hread : p.read d.buffer chunk with ⟨events, e | b⟩
        · exact List.nil_prefix
        · have hrest := ih (d := advance d chunk.length b) (by unfold advance; simp only; omega)
          exact (List.prefix_append_right_inj events).mpr hrest

/-- **A cut of a stream in which nothing is refused delivers all its events.** -/
theorem deliver_events (chunks : List (List UInt8)) {d : LineDecoder σ} {b : Buffer σ}
    (h : d.totalBytes + chunks.flatten.length ≤ p.maxBytes)
    (hread : (p.read d.buffer chunks.flatten).2 = .ok b) :
    (p.deliver d chunks).1 = (p.read d.buffer chunks.flatten).1 := by
  induction chunks generalizing d with
  | nil => rfl
  | cons chunk chunks ih =>
      rw [List.flatten_cons, List.length_append] at h
      rw [List.flatten_cons, read_append] at hread ⊢
      unfold deliver
      split
      · rename_i hdone
        simp only [read_of_done hdone, List.nil_append]
      · rw [push_eq_read (by omega)]
        rcases hchunk : p.read d.buffer chunk with ⟨events, e | b'⟩
        · rw [hchunk] at hread
          simp at hread
        · rw [hchunk] at hread
          have hrest := ih (d := advance d chunk.length b') (by unfold advance; simp only; omega)
            hread
          simp only [Except.map]
          rw [hrest]
          rfl

/-- In one chunk, a refused stream delivers nothing. -/
theorem deliver_one_chunk {d : LineDecoder σ} {bytes : List UInt8} {e : ε}
    (h : d.totalBytes + bytes.length ≤ p.maxBytes) (hread : (p.read d.buffer bytes).2 = .error e) :
    (p.deliver d [bytes]).1 = [] := by
  unfold deliver
  split
  · rfl
  · rw [push_eq_read h, hread]
    rfl

theorem read_singleton_error {b : Buffer σ} {byte : UInt8} {events : List ο} {e : ε}
    (h : p.read b [byte] = (events, .error e)) : events = [] := by
  simp only [read] at h
  split at h
  · simp at h
  · split at h
    · simp at h
    · simp only [Prod.mk.injEq] at h
      exact h.1.symm

/-- In chunks of one byte, every event before a refusal is delivered. -/
theorem deliver_bytes (bytes : List UInt8) {d : LineDecoder σ}
    (h : d.totalBytes + bytes.length ≤ p.maxBytes) :
    (p.deliver d (bytes.map fun byte => [byte])).1 = (p.read d.buffer bytes).1 := by
  induction bytes generalizing d with
  | nil => rfl
  | cons byte bytes ih =>
      rw [List.length_cons] at h
      rw [List.map_cons]
      unfold deliver
      have hsplit : byte :: bytes = [byte] ++ bytes := rfl
      split
      · rename_i hdone
        rw [read_of_done hdone]
      · rw [push_eq_read (by simp only [List.length_singleton]; omega), hsplit, read_append]
        rcases hread : p.read d.buffer [byte] with ⟨events, e | b⟩
        · exact (read_singleton_error hread).symm
        · have hrest := ih (d := advance d 1 b) (by unfold advance; simp only; omega)
          simp only [Except.map, List.length_singleton]
          rw [hrest]
          rfl

end LineProtocol

/-! ### Line by line -/

/-- The lines that end in a stream, the first of them after what is already there of it; `skip`:
an LF right here belongs to the CR before it. -/
def linesFrom : Line → Bool → List UInt8 → List Line
  | _, _, [] => []
  | line, skip, byte :: bytes =>
      if skip && byte == lf then linesFrom line false bytes
      else if byte == lf then line :: linesFrom [] false bytes
      else if byte == cr then line :: linesFrom [] true bytes
      else linesFrom (line ++ [byte]) false bytes

/-- The lines of a stream; bytes after the last line end are in none. -/
def lines (bytes : List UInt8) : List Line := linesFrom [] false bytes

namespace LineProtocol

variable (p : LineProtocol σ ε ο)

/-- One line after the other; the events before a refusal are kept. -/
def readLines : σ → List Line → List ο × Except ε σ
  | s, [] => ([], .ok s)
  | s, line :: rest =>
      if p.done s then ([], .ok s)
      else match p.finishLine s line with
        | .ok (s, events) => (events ++ (readLines s rest).1, (readLines s rest).2)
        | .error e => ([], .error e)

variable {p}

theorem readLines_of_done {s : σ} (h : p.done s = true) (rest : List Line) :
    p.readLines s rest = ([], .ok s) := by
  cases rest with
  | nil => rfl
  | cons line rest => simp only [readLines, h, if_true]

/-- **To read the bytes is to read the lines.** -/
theorem read_eq_readLines (bytes : List UInt8) (b : Buffer σ) :
    (p.read b bytes).1 = (p.readLines b.state (linesFrom b.line b.skipLfAfterCr bytes)).1 ∧
      (p.read b bytes).2.map Buffer.state =
        (p.readLines b.state (linesFrom b.line b.skipLfAfterCr bytes)).2 := by
  induction bytes generalizing b with
  | nil => exact ⟨rfl, rfl⟩
  | cons byte bytes ih =>
      by_cases hdone : p.done b.state = true
      · rw [read_of_done hdone, readLines_of_done hdone]
        exact ⟨rfl, rfl⟩
      · -- the line ends here: the same call of `finishLine` on both sides
        have hend : ∀ skip : Bool, p.accept b byte = p.endLine b skip →
            linesFrom b.line b.skipLfAfterCr (byte :: bytes) = b.line :: linesFrom [] skip bytes →
            (p.read b (byte :: bytes)).1 =
                (p.readLines b.state (linesFrom b.line b.skipLfAfterCr (byte :: bytes))).1 ∧
              (p.read b (byte :: bytes)).2.map Buffer.state =
                (p.readLines b.state (linesFrom b.line b.skipLfAfterCr (byte :: bytes))).2 := by
          intro skip haccept hlines
          rw [hlines]
          unfold read readLines
          rw [if_neg hdone, if_neg hdone, haccept]
          unfold endLine
          cases p.finishLine b.state b.line with
          | error e => exact ⟨rfl, rfl⟩
          | ok r =>
              obtain ⟨h₁, h₂⟩ := ih ⟨r.1, [], skip⟩
              refine ⟨?_, h₂⟩
              simp only [Except.map]
              rw [h₁]
        have hstay : ∀ b' : Buffer σ, p.accept b byte = .ok (b', []) → b'.state = b.state →
            linesFrom b.line b.skipLfAfterCr (byte :: bytes) =
              linesFrom b'.line b'.skipLfAfterCr bytes →
            (p.read b (byte :: bytes)).1 =
                (p.readLines b.state (linesFrom b.line b.skipLfAfterCr (byte :: bytes))).1 ∧
              (p.read b (byte :: bytes)).2.map Buffer.state =
                (p.readLines b.state (linesFrom b.line b.skipLfAfterCr (byte :: bytes))).2 := by
          intro b' haccept hstate hlines
          rw [hlines, ← hstate]
          unfold read
          rw [if_neg hdone, haccept]
          exact ih b'
        by_cases hskip : (b.skipLfAfterCr && byte == lf) = true
        · refine hstay { b with skipLfAfterCr := false } ?_ rfl ?_
          · rw [accept, if_pos hskip]
          · rw [linesFrom, if_pos hskip]
        · by_cases hlf : (byte == lf) = true
          · refine hend false ?_ ?_
            · rw [accept, if_neg hskip, if_pos hlf]
            · rw [linesFrom, if_neg hskip, if_pos hlf]
          · by_cases hcr : (byte == cr) = true
            · refine hend true ?_ ?_
              · rw [accept, if_neg hskip, if_neg hlf, if_pos hcr]
              · rw [linesFrom, if_neg hskip, if_neg hlf, if_pos hcr]
            · refine hstay ⟨b.state, b.line ++ [byte], false⟩ ?_ rfl ?_
              · rw [accept, if_neg hskip, if_neg hlf, if_neg hcr]
              · rw [linesFrom, if_neg hskip, if_neg hlf, if_neg hcr]

/-! ### When the cut shows -/

variable (p) (text : ο → List χ)

/-- The two cuts of a stream deliver the same text and end in the same way. -/
def CutIndependent (d : LineDecoder σ) (bytes : List UInt8) : Prop :=
  ∀ (chunks chunks' : List (List UInt8)) (events events' : List ο) (out out' : Except ε Unit),
    chunks.flatten = bytes → chunks'.flatten = bytes →
    p.Delivers (openStream d chunks) events out → p.Delivers (openStream d chunks') events' out' →
      events.flatMap text = events'.flatMap text ∧ out = out'

/-- One of the lines is refused, the lines before it gave some text, and none of them completed the
stream. -/
def RefusedAfterText (s : σ) (ls : List Line) : Prop :=
  ∃ before line after events s' e, ls = before ++ line :: after ∧
    p.readLines s before = (events, .ok s') ∧ events.flatMap text ≠ [] ∧
    p.done s' = false ∧ p.finishLine s' line = .error e

variable {p text}

theorem readLines_append (s : σ) (xs ys : List Line) :
    p.readLines s (xs ++ ys) = match p.readLines s xs with
      | (events, .ok s') => (events ++ (p.readLines s' ys).1, (p.readLines s' ys).2)
      | (events, .error e) => (events, .error e) := by
  induction xs generalizing s with
  | nil => rfl
  | cons line xs ih =>
      by_cases hdone : p.done s = true
      · rw [readLines_of_done hdone, readLines_of_done hdone]
        simp only [readLines_of_done hdone, List.nil_append]
      · simp only [List.cons_append, readLines, if_neg hdone]
        cases p.finishLine s line with
        | error e => rfl
        | ok r =>
            obtain ⟨s', events⟩ := r
            simp only [ih s']
            rcases p.readLines s' xs with ⟨more, e | s''⟩
            · rfl
            · simp only [List.append_assoc]

/-- A stream is refused at one of its lines, which gives no event itself. -/
theorem readLines_error (ls : List Line) {s : σ} {events : List ο} {e : ε}
    (h : p.readLines s ls = (events, .error e)) :
    ∃ before line after s', ls = before ++ line :: after ∧
      p.readLines s before = (events, .ok s') ∧ p.done s' = false ∧
      p.finishLine s' line = .error e := by
  induction ls generalizing s events with
  | nil => simp [readLines] at h
  | cons line ls ih =>
      by_cases hdone : p.done s = true
      · rw [readLines_of_done hdone] at h
        simp at h
      · simp only [readLines, if_neg hdone] at h
        cases hline : p.finishLine s line with
        | error e' =>
            rw [hline] at h
            simp only [Prod.mk.injEq, Except.error.injEq] at h
            obtain ⟨rfl, rfl⟩ := h
            exact ⟨[], line, ls, s, rfl, rfl, by simpa using hdone, hline⟩
        | ok r =>
            obtain ⟨t, first⟩ := r
            rw [hline] at h
            simp only [Prod.mk.injEq] at h
            obtain ⟨rfl, hout⟩ := h
            obtain ⟨before, line', after, s', rfl, hbefore, hnot, hrefuse⟩ :=
              ih (s := t) (Prod.ext rfl hout)
            refine ⟨line :: before, line', after, s', rfl, ?_, hnot, hrefuse⟩
            simp only [readLines, if_neg hdone, hline]
            rw [hbefore]

theorem refusedAfterText_iff {s : σ} {ls : List Line} :
    p.RefusedAfterText text s ls ↔
      (∃ e, (p.readLines s ls).2 = .error e) ∧ (p.readLines s ls).1.flatMap text ≠ [] := by
  constructor
  · rintro ⟨before, line, after, events, s', e, rfl, hbefore, htext, hdone, hline⟩
    have hrest : p.readLines s' (line :: after) = ([], .error e) := by
      simp only [readLines, hdone, hline, Bool.false_eq_true, if_false]
    rw [readLines_append, hbefore]
    simp only [hrest, List.append_nil]
    exact ⟨⟨e, rfl⟩, htext⟩
  · rintro ⟨⟨e, he⟩, htext⟩
    obtain ⟨before, line, after, s', rfl, hbefore, hdone, hline⟩ :=
      readLines_error ls (Prod.ext rfl he)
    exact ⟨before, line, after, _, s', e, rfl, hbefore, htext, hdone, hline⟩

/-- **The cut of a stream shows exactly where a line is refused after some text.** -/
theorem cutIndependent_iff {s : σ} {bytes : List UInt8} (h : bytes.length ≤ p.maxBytes) :
    p.CutIndependent text ⟨0, s, [], false⟩ bytes ↔ ¬ p.RefusedAfterText text s (lines bytes) := by
  obtain ⟨hevents, hout⟩ := read_eq_readLines (p := p) bytes ⟨s, [], false⟩
  have hlen : ∀ {chunks : List (List UInt8)}, chunks.flatten = bytes →
      0 + chunks.flatten.length ≤ p.maxBytes := fun heq => by rw [heq]; omega
  rw [refusedAfterText_iff]
  unfold lines
  rw [← hevents, ← hout]
  constructor
  · rintro hsame ⟨⟨e, he⟩, htext⟩
    have hread : (p.read ⟨s, [], false⟩ bytes).2 = .error e := by
      cases hr : (p.read ⟨s, [], false⟩ bytes).2 with
      | ok b => rw [hr] at he; simp [Except.map] at he
      | error e' =>
          rw [hr] at he
          simp only [Except.map, Except.error.injEq] at he
          rw [he]
    -- one chunk against chunks of one byte
    have hcut : (bytes.map fun byte => [byte]).flatten = bytes := by
      rw [← List.flatMap_def, List.flatMap_singleton']
    obtain ⟨heq, -⟩ := hsame [bytes] (bytes.map fun byte => [byte]) _ _ _ _
      (by simp) hcut (delivers_deliver _ _) (delivers_deliver _ _)
    rw [deliver_one_chunk (d := ⟨0, s, [], false⟩) (by simpa using h) hread,
      deliver_bytes bytes (by simpa using h)] at heq
    exact htext heq.symm
  · intro hnot chunks chunks' events events' out out' hc hc' hd hd'
    rw [delivers_iff] at hd hd'
    have hout₁ := deliver_outcome chunks (d := ⟨0, s, [], false⟩) (hlen hc)
    have hout₂ := deliver_outcome chunks' (d := ⟨0, s, [], false⟩) (hlen hc')
    rw [hd, hc] at hout₁
    rw [hd', hc'] at hout₂
    refine ⟨?_, hout₁.trans hout₂.symm⟩
    cases hr : (p.read ⟨s, [], false⟩ bytes).2 with
    | ok b =>
        have h₁ := deliver_events chunks (d := ⟨0, s, [], false⟩) (hlen hc) (by rw [hc]; exact hr)
        have h₂ := deliver_events chunks' (d := ⟨0, s, [], false⟩) (hlen hc')
          (by rw [hc']; exact hr)
        rw [hd, hc] at h₁
        rw [hd', hc'] at h₂
        simp only at h₁ h₂
        rw [h₁, h₂]
    | error e =>
        have hnone : (p.read ⟨s, [], false⟩ bytes).1.flatMap text = [] := by
          by_contra htext
          exact hnot ⟨⟨e, by rw [hr]; rfl⟩, htext⟩
        have hempty : ∀ {evs : List ο}, evs <+: (p.read ⟨s, [], false⟩ bytes).1 →
            evs.flatMap text = [] := by
          rintro evs ⟨more, hmore⟩
          rw [← hmore, List.flatMap_append] at hnone
          exact (List.append_eq_nil_iff.mp hnone).1
        have h₁ := deliver_prefix chunks (d := ⟨0, s, [], false⟩) (hlen hc)
        have h₂ := deliver_prefix chunks' (d := ⟨0, s, [], false⟩) (hlen hc')
        rw [hd, hc] at h₁
        rw [hd', hc'] at h₂
        rw [hempty h₁, hempty h₂]

end LineProtocol

end Netcatty.LineStream
