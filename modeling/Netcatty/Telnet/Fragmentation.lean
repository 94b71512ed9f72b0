import Netcatty.Telnet.Codec

/-! # Decoding does not depend on the frames

`receiveByte` is the codec one byte at a time, activation included.  A successful `receive` of a
frame is `receiveByte` fed with its bytes (`feed_of_receive`), so frames that carry one stream leave
one codec and one result (`receiveAll_fragmentation`).

`encodeInput` and `receive` are inverse up to newline normalization: in any frames, the encoding of
an input by an active codec reaches an active peer between commands as application data alone
(`receive_independent_of_frames`). -/

namespace Netcatty.Telnet

open Feed

namespace TelnetCodec

variable {c c' : TelnetCodec} {r : DecodeResult}

/-- One received byte: a raw codec passes it on until the first IAC, which activates it. -/
def receiveByte (c : TelnetCodec) (byte : UInt8) : TelnetCodec × Except CodecError DecodeResult :=
  if c.active then c.parseByte byte
  else if byte = Command.iac then
    andThen (c.activate.1, .ok c.activate.2) fun c => c.parseByte byte
  else (c, .ok (.data [byte]))

/-- Receive frame after frame. -/
def receiveAll (c : TelnetCodec) (frames : List (List UInt8)) :
    TelnetCodec × Except CodecError DecodeResult :=
  feedAll receive c frames

/-! ### What the option handlers leave alone -/

/-- `c'` differs from `c` in its option tables and echo flags only. -/
structure SameSession (c c' : TelnetCodec) : Prop where
  config : c'.config = c.config
  active : c'.active = c.active
  poisoned : c'.poisoned = c.poisoned
  parseState : c'.parseState = c.parseState
  subnegotiation : c'.subnegotiation = c.subnegotiation

theorem SameSession.refl (c : TelnetCodec) : SameSession c c := ⟨rfl, rfl, rfl, rfl, rfl⟩

theorem SameSession.trans {c₁ c₂ c₃ : TelnetCodec} (h : SameSession c₁ c₂)
    (h' : SameSession c₂ c₃) : SameSession c₁ c₃ :=
  ⟨h'.config.trans h.config, h'.active.trans h.active, h'.poisoned.trans h.poisoned,
    h'.parseState.trans h.parseState, h'.subnegotiation.trans h.subnegotiation⟩

theorem sameSession_setRemote (o : UInt8) (s : OptionState) : SameSession c (c.setRemote o s) :=
  ⟨rfl, rfl, rfl, rfl, rfl⟩

theorem sameSession_setLocal (o : UInt8) (s : OptionState) : SameSession c (c.setLocal o s) :=
  ⟨rfl, rfl, rfl, rfl, rfl⟩

theorem sameSession_setRemoteEcho (b : Bool) : SameSession c (c.setRemoteEcho b).1 := by
  unfold setRemoteEcho
  split <;> exact ⟨rfl, rfl, rfl, rfl, rfl⟩

theorem sameSession_setLocalEcho (b : Bool) : SameSession c (c.setLocalEcho b).1 := by
  unfold setLocalEcho
  split <;> exact ⟨rfl, rfl, rfl, rfl, rfl⟩

theorem sameSession_revokeLocalEcho : SameSession c c.revokeLocalEcho.1 := by
  unfold revokeLocalEcho
  split
  · exact (sameSession_setLocal _ _).trans (sameSession_setLocalEcho false)
  · exact .refl c

theorem sameSession_handleWill (o : UInt8) : SameSession c (c.handleWill o).1 := by
  unfold handleWill
  split
  · exact sameSession_setRemote _ _
  · by_cases ho : o = Opt.echo
    · simp only [ho, if_true]
      exact ((sameSession_setRemote _ _).trans sameSession_revokeLocalEcho).trans
        (sameSession_setRemoteEcho true)
    · simp only [ho, if_false]
      exact sameSession_setRemote _ _

theorem sameSession_handleWont (o : UInt8) : SameSession c (c.handleWont o).1 := by
  unfold handleWont
  by_cases ho : o = Opt.echo
  · simp only [ho, if_true]
    exact (sameSession_setRemote _ _).trans (sameSession_setRemoteEcho false)
  · simp only [ho, if_false]
    exact sameSession_setRemote _ _

theorem sameSession_handleDo (o : UInt8) : SameSession c (c.handleDo o).1 := by
  unfold handleDo
  split
  · exact sameSession_setLocal _ _
  · dsimp only
    split
    · exact (sameSession_setLocal _ _).trans (sameSession_setLocalEcho true)
    · exact sameSession_setLocal _ _

theorem sameSession_handleDont (o : UInt8) : SameSession c (c.handleDont o).1 := by
  unfold handleDont
  dsimp only
  split
  · exact (sameSession_setLocal _ _).trans (sameSession_setLocalEcho false)
  · exact sameSession_setLocal _ _

theorem sameSession_handleOption (verb o : UInt8) : SameSession c (c.handleOption verb o).1 := by
  unfold handleOption
  split_ifs
  · exact sameSession_handleWill o
  · exact sameSession_handleWont o
  · exact sameSession_handleDo o
  · exact sameSession_handleDont o
  · exact .refl c

@[simp] theorem setParse_active (p : ParseState) : (c.setParse p).active = c.active := rfl

@[simp] theorem activate_active : c.activate.1.active = true := rfl

/-! ### Parsing never deactivates -/

theorem pushSubnegotiation_active (byte : UInt8) :
    (c.pushSubnegotiation byte).1.active = c.active := by
  unfold pushSubnegotiation; split <;> rfl

theorem parseByte_active (byte : UInt8) : (c.parseByte byte).1.active = c.active := by
  unfold parseByte
  cases c.parseState with
  | data => dsimp only; split_ifs <;> rfl
  | iac => dsimp only; split_ifs <;> rfl
  | option verb => exact (sameSession_handleOption verb byte).active
  | subnegotiationOption => rfl
  | subnegotiationData o =>
      have := pushSubnegotiation_active (c := c) byte
      dsimp only
      split_ifs
      · rfl
      · rcases h : c.pushSubnegotiation byte with ⟨c', _ | _⟩ <;> simpa [h] using this
  | subnegotiationIac o =>
      have := pushSubnegotiation_active (c := c) Command.iac
      dsimp only
      split_ifs
      · rfl
      · rcases h : c.pushSubnegotiation Command.iac with ⟨c', _ | _⟩
        · simpa [h] using this
        · simpa [h, setParse] using this
      · rfl

/-! ### A frame is its bytes -/

theorem receiveByte_of_active (h : c.active = true) (byte : UInt8) :
    c.receiveByte byte = c.parseByte byte := by
  simp [receiveByte, h]

/-- Past activation the loop over a frame is the byte machine. -/
theorem feed_parseByte (bytes : List UInt8) :
    ∀ {c : TelnetCodec}, c.active = true → feed parseByte c bytes = feed receiveByte c bytes := by
  induction bytes with
  | nil => intro c _; rfl
  | cons b bs ih =>
      intro c hc
      simp only [feed, receiveByte_of_active hc]
      have ha := parseByte_active (c := c) b
      rcases h : c.parseByte b with ⟨c', e | w⟩
      · rfl
      · rw [h, hc] at ha
        simp only [andThen, ih ha]

/-- A raw codec passes on bytes that hold no IAC. -/
theorem feed_raw (h : c.active = false) (bytes : List UInt8) (hb : Command.iac ∉ bytes) :
    feed receiveByte c bytes = (c, .ok (.data bytes)) := by
  induction bytes with
  | nil => rfl
  | cons b bs ih =>
      simp only [List.mem_cons, not_or] at hb
      have hstep : c.receiveByte b = (c, .ok (.data [b])) := by
        simp [receiveByte, h, Ne.symm hb.1]
      rw [feed, hstep, andThen_eq_ok]
      exact ⟨c, _, _, rfl, ih hb.2, by ext1 <;> simp [DecodeResult.data]⟩

/-- The first IAC of a frame activates a raw codec before it is parsed. -/
theorem feed_activating (h : c.active = false) (rest : List UInt8) :
    feed receiveByte c (Command.iac :: rest) =
      andThen (c.activate.1, .ok c.activate.2) fun c => feed parseByte c (Command.iac :: rest) := by
  have hstep : c.receiveByte Command.iac =
      andThen (c.activate.1, .ok c.activate.2) fun c => c.parseByte Command.iac := by
    simp [receiveByte, h]
  have hloop : feed parseByte c.activate.1 (Command.iac :: rest) =
      andThen (c.activate.1.parseByte Command.iac) fun c => feed receiveByte c rest := by
    rw [feed_parseByte _ rfl, feed, receiveByte_of_active rfl]
  rw [feed, hstep, andThen_assoc]
  simp only [andThen, hloop]

/-- Where a frame first holds an IAC: clean bytes before it, the IAC, and the rest. -/
theorem findIdx_iac {input : List UInt8} {iacAt : ℕ}
    (h : input.findIdx? (· == Command.iac) = some iacAt) :
    Command.iac ∉ input.take iacAt ∧ ∃ rest, input.drop iacAt = Command.iac :: rest := by
  obtain ⟨hlt, hat, hbefore⟩ := List.findIdx?_eq_some_iff_getElem.mp h
  refine ⟨fun hmem => ?_, input.drop (iacAt + 1), ?_⟩
  · obtain ⟨i, hi, he⟩ := List.mem_iff_getElem.mp hmem
    have := hbefore i (by rw [List.length_take] at hi; omega)
    rw [List.getElem_take] at he
    simp [he] at this
  · rw [List.drop_eq_getElem_cons hlt]
    congr 1
    simpa using hat

/-- **A frame that is received is its bytes fed one by one.** -/
theorem feed_of_receive {input : List UInt8} (h : c.receive input = (c', .ok r)) :
    feed receiveByte c input = (c', .ok r) := by
  unfold receive at h
  split at h
  · simp at h
  · simp at h
  · cases hc : c.active with
    | true => simpa [hc, feed_parseByte input hc] using h
    | false =>
        simp only [hc, Bool.not_false, if_true] at h
        split at h
        · rename_i hnone
          rw [← h]
          refine feed_raw hc _ fun hmem => ?_
          rw [List.findIdx?_eq_none_iff] at hnone
          exact absurd (hnone _ hmem) (by simp)
        · rename_i iacAt hsome
          obtain ⟨htake, rest, hdrop⟩ := findIdx_iac hsome
          obtain ⟨c₁, w₁, w₂, h₁, h₂, rfl⟩ := andThen_eq_ok.mp h
          simp only [Prod.mk.injEq, Except.ok.injEq] at h₁
          obtain ⟨rfl, rfl⟩ := h₁
          have hrest : feed receiveByte c (input.drop iacAt) = (c', .ok (c.activate.2 + w₂)) := by
            rw [hdrop] at h₂ ⊢
            rw [feed_activating hc, andThen_eq_ok]
            exact ⟨_, _, _, rfl, h₂, rfl⟩
          have hall : feed receiveByte c (input.take iacAt ++ input.drop iacAt) =
              (c', .ok (.data (input.take iacAt) + (c.activate.2 + w₂))) := by
            rw [feed_append, feed_raw hc _ htake, andThen_eq_ok]
            exact ⟨c, _, _, rfl, hrest, rfl⟩
          rw [List.take_append_drop] at hall
          rw [hall, add_assoc]

/-- **Decoding is independent of fragmentation**: two ways of cutting one stream into frames that
are received without an error leave the same codec and the same data, replies and events. -/
theorem receiveAll_fragmentation {fs gs : List (List UInt8)} (hfg : fs.flatten = gs.flatten)
    {c₁ c₂ : TelnetCodec} {r₁ r₂ : DecodeResult} (h₁ : c.receiveAll fs = (c₁, .ok r₁))
    (h₂ : c.receiveAll gs = (c₂, .ok r₂)) : c₁ = c₂ ∧ r₁ = r₂ :=
  feedAll_congr (fun _ _ _ _ h => feed_of_receive h) hfg h₁ h₂

/-! ### Receiving what a peer encoded -/

theorem parseByte_data (hp : c.parseState = .data) {byte : UInt8} (hb : byte ≠ Command.iac) :
    c.parseByte byte = (c, .ok (.data [byte])) := by
  simp [parseByte, hp, hb]

/-- An escaped IAC is one byte of data. -/
theorem feed_parseByte_iac (hp : c.parseState = .data) :
    feed parseByte c [Command.iac, Command.iac] = (c, .ok (.data [Command.iac])) := by
  have h₁ : c.parseByte Command.iac = (c.setParse .iac, .ok 0) := by simp [parseByte, hp]
  have h₂ : (c.setParse .iac).parseByte Command.iac = (c, .ok (.data [Command.iac])) := by
    simp [parseByte, setParse, ← hp]
  simp only [feed, h₁, h₂, andThen, add_zero, zero_add]

/-- A codec between commands reads escaped bytes as data. -/
theorem feed_escapeIac (hp : c.parseState = .data) (bytes : List UInt8) :
    feed parseByte c (escapeIac bytes) = (c, .ok (.data bytes)) := by
  induction bytes with
  | nil => rfl
  | cons b bs ih =>
      have hhead : feed parseByte c (if b = Command.iac then [b, Command.iac] else [b]) =
          (c, .ok (.data [b])) := by
        split_ifs with hb
        · rw [hb]; exact feed_parseByte_iac hp
        · rw [feed_singleton, parseByte_data hp hb]
      have hcons : escapeIac (b :: bs) =
          (if b = Command.iac then [b, Command.iac] else [b]) ++ escapeIac bs := rfl
      rw [hcons, feed_append, hhead, andThen_eq_ok]
      exact ⟨c, _, _, rfl, ih, by ext1 <;> simp [DecodeResult.data]⟩

theorem escapeIac_of_notMem {bytes : List UInt8} (h : Command.iac ∉ bytes) :
    escapeIac bytes = bytes := by
  induction bytes with
  | nil => rfl
  | cons b bs ih =>
      simp only [List.mem_cons, not_or] at h
      have hcons : escapeIac (b :: bs) =
          (if b = Command.iac then [b, Command.iac] else [b]) ++ escapeIac bs := rfl
      rw [hcons, if_neg (Ne.symm h.1), ih h.2]
      rfl

/-- An active codec sends the escaped normal form of its input. -/
theorem encodeInput_eq {input bytes : List UInt8} (ha : c.active = true)
    (h : c.encodeInput input = .ok bytes) : bytes = escapeIac (normalizeNvtNewlines input) := by
  unfold encodeInput at h
  rcases he : c.ensureAvailable with e | u
  · simp [he, bind, Except.bind] at h
  · rcases hs : checkInputSize input with e | u'
    · simp [he, hs, bind, Except.bind] at h
    · simp only [he, hs, bind, Except.bind, ha, Bool.not_true, Bool.false_or] at h
      split at h
      · rename_i hmem
        simp only [Except.ok.injEq] at h
        rw [← h, escapeIac_of_notMem]
        simpa using hmem
      · simpa using h.symm

/-- A codec that is available accepts every frame within the input limit. -/
theorem receive_of_active (ha : c.active = true) (hp : c.poisoned = false) {input : List UInt8}
    (hlen : input.length ≤ maxInputBytes) : c.receive input = feed parseByte c input := by
  have hs : checkInputSize input = .ok () := by
    unfold checkInputSize
    rw [if_neg (by omega)]
  simp [receive, ensureAvailable, hp, hs, ha]

theorem parseByte_poisoned {byte : UInt8} (h : c.parseByte byte = (c', .ok r)) :
    c'.poisoned = c.poisoned := by
  have hpush : ∀ b c₁, c.pushSubnegotiation b = (c₁, .ok ()) → c₁.poisoned = c.poisoned := by
    intro b c₁ hb
    unfold pushSubnegotiation at hb
    split at hb
    · simp at hb
    · simp only [Prod.mk.injEq] at hb
      rw [← hb.1]
  unfold parseByte at h
  cases hs : c.parseState with
  | data | iac =>
      simp only [hs] at h
      split_ifs at h <;> (obtain ⟨rfl, -⟩ := Prod.mk.inj h; rfl)
  | option verb =>
      simp only [hs] at h
      obtain ⟨rfl, -⟩ := Prod.mk.inj h
      exact (sameSession_handleOption verb byte).poisoned
  | subnegotiationOption =>
      simp only [hs] at h
      obtain ⟨rfl, -⟩ := Prod.mk.inj h
      rfl
  | subnegotiationData o =>
      simp only [hs] at h
      split_ifs at h
      · obtain ⟨rfl, -⟩ := Prod.mk.inj h; rfl
      · rcases hp : c.pushSubnegotiation byte with ⟨c₁, e | u⟩ <;> simp only [hp] at h
        · simp at h
        · obtain ⟨rfl, -⟩ := Prod.mk.inj h
          exact hpush byte c₁ hp
  | subnegotiationIac o =>
      simp only [hs] at h
      split_ifs at h
      · obtain ⟨rfl, -⟩ := Prod.mk.inj h; rfl
      · rcases hp : c.pushSubnegotiation Command.iac with ⟨c₁, e | u⟩ <;> simp only [hp] at h
        · simp at h
        · obtain ⟨rfl, -⟩ := Prod.mk.inj h
          exact hpush Command.iac c₁ hp
      · obtain ⟨rfl, -⟩ := Prod.mk.inj h; rfl

/-- A codec that receives is active and not poisoned, and stays so while it parses. -/
def Available (c : TelnetCodec) : Prop := c.active = true ∧ c.poisoned = false

theorem Available.parseByte (h : c.Available) {byte : UInt8}
    (hb : c.parseByte byte = (c', .ok r)) : c'.Available := by
  refine ⟨?_, (parseByte_poisoned hb).trans h.2⟩
  have := parseByte_active (c := c) byte
  rw [hb] at this
  exact this.trans h.1

/-- An available codec between commands reads escaped bytes as data, in any frames. -/
theorem receiveAll_escapeIac (h : c.Available) (hd : c.parseState = .data) {data : List UInt8}
    {frames : List (List UInt8)} (hlen : ∀ f ∈ frames, f.length ≤ maxInputBytes)
    (hflat : frames.flatten = escapeIac data) : c.receiveAll frames = (c, .ok (.data data)) := by
  apply feedAll_of_feed (I := Available) (Q := fun f => f.length ≤ maxInputBytes)
    (fun s f hs hf => receive_of_active hs.1 hs.2 hf) ?_ frames h hlen
  · rw [hflat, feed_escapeIac hd]
  · intro s f s' w hs hf
    exact feed_invariant (fun s a s' w hs ha => hs.parseByte ha) f hs hf

/-! ### The codec as a whole -/

/-- **Fragmentation and encoding.**  Frames that carry one stream and are received without an error
leave one codec and one result; and whatever an active peer encodes is received, in any frames within
the input limit, by an available codec between commands as the normalized input and nothing else. -/
theorem receive_independent_of_frames :
    (∀ (c c₁ c₂ : TelnetCodec) (fs gs : List (List UInt8)) (r₁ r₂ : DecodeResult),
      fs.flatten = gs.flatten → c.receiveAll fs = (c₁, .ok r₁) → c.receiveAll gs = (c₂, .ok r₂) →
        c₁ = c₂ ∧ r₁ = r₂) ∧
    (∀ (peer c : TelnetCodec) (input bytes : List UInt8) (frames : List (List UInt8)),
      peer.active = true → peer.encodeInput input = .ok bytes →
      c.Available → c.parseState = .data →
      frames.flatten = bytes → (∀ f ∈ frames, f.length ≤ maxInputBytes) →
        c.receiveAll frames = (c, .ok ⟨normalizeNvtNewlines input, [], []⟩)) := by
  refine ⟨fun c c₁ c₂ fs gs r₁ r₂ hfg h₁ h₂ => receiveAll_fragmentation hfg h₁ h₂, ?_⟩
  intro peer c input bytes frames hpeer henc hc hd hflat hlen
  rw [encodeInput_eq hpeer henc] at hflat
  exact receiveAll_escapeIac hc hd hlen hflat

/-- A codec that has received one IAC: active, and in the middle of a command. -/
def afterIac : TelnetCodec := ((new .default).receive [Command.iac]).1

/-- In the middle of a command the first byte of an encoded input is read as the command's. -/
theorem receive_encodeInput_midCommand :
    afterIac.active = true ∧ afterIac.poisoned = false ∧
      afterIac.encodeInput [0x78] = .ok [0x78] ∧
      normalizeNvtNewlines [0x78] = [0x78] ∧
      (afterIac.receive [0x78]).2 = .ok ⟨[], [], []⟩ := by
  refine ⟨rfl, rfl, rfl, rfl, rfl⟩

/-- An activated codec that has finished its command receives an escaped IAC in two frames. -/
theorem receive_independent_of_frames_nop :
    let c := (afterIac.receive [241]).1
    (c.receiveAll [[0x61], [0x62]] = (c, .ok ⟨[0x61, 0x62], [], []⟩)) ∧
      c.receiveAll [[0x61, 0xff], [0xff, 0x0d], [0x0a]] =
        (c, .ok ⟨[0x61, 0xff, 0x0d, 0x0a], [], []⟩) := by
  intro c
  have h : ∀ input bytes frames, c.encodeInput input = .ok bytes → frames.flatten = bytes →
      (∀ f ∈ frames, f.length ≤ maxInputBytes) →
      c.receiveAll frames = (c, .ok ⟨normalizeNvtNewlines input, [], []⟩) := fun input bytes frames =>
    fun he => receive_independent_of_frames.2 c c input bytes frames rfl he ⟨rfl, rfl⟩ rfl
  exact ⟨h [0x61, 0x62] _ _ rfl rfl (by decide), h [0x61, 0xff, 0x0a] _ _ rfl rfl (by decide)⟩

end TelnetCodec

end Netcatty.Telnet
