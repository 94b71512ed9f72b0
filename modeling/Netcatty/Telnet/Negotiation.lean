import Mathlib.Algebra.BigOperators.Intervals
import Netcatty.Telnet.Fragmentation

/-! # Option negotiation between two codecs

Two codecs are joined by FIFO byte channels; a step delivers any prefix of a channel to the codec at
its end, whose replies join the other channel.  A step is labelled by the option commands it sends
and by the WONTs it delivers for an option that their receiver has enabled.

Negotiation can go on for ever: after DO ECHO in both directions the codecs exchange DONT/WILL and
WONT/DO without end (`negotiation_loops`).  A run exchanges finitely many commands exactly when it
delivers finitely many disabling WONTs (`negotiation_ends_iff`): `potential` weighs the commands in
flight (DO over WILL over DONT over WONT), a codec that has not made its offers and the remote
options it may still enable, and every command sent is paid out of it, or by a disabling WONT
(`Net.deliver_pays`). -/

namespace Netcatty.Telnet

open Feed Finset

/-! ### The commands of a byte stream -/

/-- The parser state after a byte, as `parseByte` moves it. -/
def nextParse : ParseState → UInt8 → ParseState
  | .data, byte => if byte = Command.iac then .iac else .data
  | .iac, byte =>
    if byte = Command.iac then .data
    else if isOptionCommand byte then .option byte
    else if byte = Command.sb then .subnegotiationOption
    else .data
  | .option _, _ => .data
  | .subnegotiationOption, byte => .subnegotiationData byte
  | .subnegotiationData o, byte =>
    if byte = Command.iac then .subnegotiationIac o else .subnegotiationData o
  | .subnegotiationIac o, byte => if byte = Command.se then .data else .subnegotiationData o

/-- The option command that a byte completes. -/
def completed : ParseState → UInt8 → List (UInt8 × UInt8)
  | .option verb, byte => [(verb, byte)]
  | _, _ => []

def endParse (p : ParseState) (bytes : List UInt8) : ParseState := bytes.foldl nextParse p

/-- The option commands of a stream read from a parser state. -/
def commandsFrom : ParseState → List UInt8 → List (UInt8 × UInt8)
  | _, [] => []
  | p, byte :: bytes => completed p byte ++ commandsFrom (nextParse p byte) bytes

/-- The option commands of a stream that starts between commands. -/
def optionCommands (bytes : List UInt8) : List (UInt8 × UInt8) := commandsFrom .data bytes

/-- A stream that ends between commands. -/
def Closed (bytes : List UInt8) : Prop := endParse .data bytes = .data

theorem endParse_append (p : ParseState) (as bs : List UInt8) :
    endParse p (as ++ bs) = endParse (endParse p as) bs := List.foldl_append

theorem commandsFrom_append (as bs : List UInt8) : ∀ p : ParseState,
    commandsFrom p (as ++ bs) = commandsFrom p as ++ commandsFrom (endParse p as) bs := by
  induction as with
  | nil => intro p; rfl
  | cons a as ih =>
      intro p
      simp only [List.cons_append, commandsFrom, ih, List.append_assoc]
      rfl

theorem Closed.append {as bs : List UInt8} (ha : Closed as) (hb : Closed bs) : Closed (as ++ bs) := by
  unfold Closed at *
  rw [endParse_append, ha, hb]

theorem closed_nil : Closed [] := rfl

theorem optionCommands_append {as bs : List UInt8} (ha : Closed as) :
    optionCommands (as ++ bs) = optionCommands as ++ optionCommands bs := by
  unfold optionCommands
  rw [commandsFrom_append, ha]

theorem closed_appendCommand {verb : UInt8} (hv : isOptionCommand verb = true) (o : UInt8) :
    Closed (appendCommand verb o) := by
  have hne : verb ≠ Command.iac := by rintro rfl; exact absurd hv (by decide)
  simp [Closed, endParse, appendCommand, nextParse, hne, hv]

theorem optionCommands_appendCommand {verb : UInt8} (hv : isOptionCommand verb = true)
    (o : UInt8) : optionCommands (appendCommand verb o) = [(verb, o)] := by
  have hne : verb ≠ Command.iac := by rintro rfl; exact absurd hv (by decide)
  simp [optionCommands, appendCommand, commandsFrom, nextParse, completed, hne, hv]

/-- An escaped payload keeps the parser inside its subnegotiation. -/
theorem parse_escapeIac (o : UInt8) (payload : List UInt8) :
    endParse (.subnegotiationData o) (escapeIac payload) = .subnegotiationData o ∧
      commandsFrom (.subnegotiationData o) (escapeIac payload) = [] := by
  induction payload with
  | nil => exact ⟨rfl, rfl⟩
  | cons b bs ih =>
      have hcons : escapeIac (b :: bs) =
          (if b = Command.iac then [b, Command.iac] else [b]) ++ escapeIac bs := rfl
      have hhead : endParse (.subnegotiationData o)
            (if b = Command.iac then [b, Command.iac] else [b]) = .subnegotiationData o ∧
          commandsFrom (.subnegotiationData o)
            (if b = Command.iac then [b, Command.iac] else [b]) = [] := by
        split_ifs with hb
        · subst hb; exact ⟨rfl, rfl⟩
        · simp [endParse, commandsFrom, nextParse, completed, hb]
      rw [hcons, endParse_append, commandsFrom_append, hhead.1, hhead.2]
      exact ⟨ih.1, ih.2⟩

theorem parse_appendSubnegotiation (o : UInt8) (payload : List UInt8) :
    Closed (appendSubnegotiation o payload) ∧ optionCommands (appendSubnegotiation o payload) = [] := by
  obtain ⟨hend, hcmd⟩ := parse_escapeIac o payload
  have hopen : endParse .data [Command.iac, Command.sb, o] = .subnegotiationData o := rfl
  have hnone : commandsFrom .data [Command.iac, Command.sb, o] = [] := rfl
  unfold Closed optionCommands appendSubnegotiation
  rw [endParse_append, endParse_append, commandsFrom_append, commandsFrom_append, endParse_append,
    hopen, hend, hnone, hcmd]
  exact ⟨rfl, rfl⟩

/-! ### Weights -/

/-- A command weighs more than its answer and the answer's cost. -/
def weight (command : UInt8 × UInt8) : ℕ :=
  if command.1 = Command.do then 4
  else if command.1 = Command.will then 3
  else if command.1 = Command.dont then 2
  else 1

def weightOf (commands : List (UInt8 × UInt8)) : ℕ := (commands.map weight).sum

/-- What sending a stream costs: the weight of its commands, and one for each. -/
def charge (bytes : List UInt8) : ℕ :=
  weightOf (optionCommands bytes) + (optionCommands bytes).length

theorem weightOf_append (as bs : List (UInt8 × UInt8)) :
    weightOf (as ++ bs) = weightOf as + weightOf bs := by simp [weightOf]

theorem charge_append {as : List UInt8} (ha : Closed as) (bs : List UInt8) :
    charge (as ++ bs) = charge as + charge bs := by
  unfold charge
  rw [optionCommands_append ha, weightOf_append, List.length_append]
  omega

@[simp] theorem charge_nil : charge [] = 0 := rfl

theorem charge_appendCommand {verb : UInt8} (hv : isOptionCommand verb = true) (o : UInt8) :
    charge (appendCommand verb o) = weight (verb, o) + 1 := by
  simp [charge, optionCommands_appendCommand hv, weightOf]

/-- What a codec may still add on its own: its offers, and its first acceptance of each of the
remote options it supports. -/
def credit (c : TelnetCodec) : ℕ :=
  (if c.active then 0 else 13) +
    (if (c.remoteOptions Opt.echo).enabled then 0 else 4) +
    (if (c.remoteOptions Opt.suppressGoAhead).enabled then 0 else 4)

/-- A codec and the bytes in flight to it. -/
def potential (c : TelnetCodec) (bytes : List UInt8) : ℕ :=
  credit c + weightOf (commandsFrom c.parseState bytes)

/-- The byte ends a WONT for an option that its receiver has enabled. -/
def Disables (c : TelnetCodec) (byte : UInt8) : Prop :=
  c.parseState = .option Command.wont ∧ (c.remoteOptions byte).enabled = true

instance (c : TelnetCodec) (byte : UInt8) : Decidable (Disables c byte) :=
  inferInstanceAs (Decidable (_ ∧ _))

/-- What a disabling WONT costs: the option may be enabled again, and the WONT is answered. -/
def disablingCost : ℕ := 6

namespace TelnetCodec

variable {c c' : TelnetCodec} {r : DecodeResult}

/-! ### What a handler sends is paid for -/

theorem charge_if_appendCommand (verb : UInt8) (hv : isOptionCommand verb = true) (o : UInt8)
    (b : Bool) :
    Closed (if b then appendCommand verb o else []) ∧
      charge (if b then appendCommand verb o else []) ≤ weight (verb, o) + 1 := by
  cases b with
  | true => exact ⟨closed_appendCommand hv o, (charge_appendCommand hv o).le⟩
  | false => exact ⟨closed_nil, Nat.zero_le _⟩

@[simp] theorem setRemoteEcho_remoteOptions (b : Bool) :
    (c.setRemoteEcho b).1.remoteOptions = c.remoteOptions := by
  unfold setRemoteEcho; split <;> rfl

@[simp] theorem setLocalEcho_remoteOptions (b : Bool) :
    (c.setLocalEcho b).1.remoteOptions = c.remoteOptions := by
  unfold setLocalEcho; split <;> rfl

@[simp] theorem revokeLocalEcho_remoteOptions :
    c.revokeLocalEcho.1.remoteOptions = c.remoteOptions := by
  unfold revokeLocalEcho
  split
  · exact setLocalEcho_remoteOptions false
  · rfl

theorem revokeLocalEcho_outbound :
    Closed c.revokeLocalEcho.2.outbound ∧ charge c.revokeLocalEcho.2.outbound ≤ 2 := by
  unfold revokeLocalEcho
  split
  · exact ⟨closed_appendCommand (by decide) _, (charge_appendCommand (by decide) _).le⟩
  · exact ⟨closed_nil, Nat.zero_le _⟩

/-- The credit is a matter of the activity and of two remote options. -/
theorem credit_congr (ha : c'.active = c.active) (hr : c'.remoteOptions = c.remoteOptions) :
    credit c' = credit c := by
  unfold credit; rw [ha, hr]

theorem appendNawsIfEnabled_outbound :
    Closed c.appendNawsIfEnabled ∧ charge c.appendNawsIfEnabled = 0 := by
  unfold appendNawsIfEnabled
  split
  · exact ⟨closed_nil, rfl⟩
  · have h := parse_appendSubnegotiation Opt.naws
      (beBytes16 c.config.windowSize.columns ++ beBytes16 c.config.windowSize.rows)
    exact ⟨h.1, by unfold charge; rw [h.2]; rfl⟩

theorem handleDo_outbound (o : UInt8) :
    Closed (c.handleDo o).2.outbound ∧ charge (c.handleDo o).2.outbound ≤ 4 := by
  unfold handleDo
  split
  · have h := charge_if_appendCommand Command.wont rfl o
      (!(c.localOptions o).rejectionSent)
    exact ⟨h.1, h.2.trans (show (2 : ℕ) ≤ 4 by omega)⟩
  · have h := charge_if_appendCommand Command.will rfl o
      (!(c.localOptions o).pendingEnable && !(c.localOptions o).enabled)
    have hsize : ∀ (p : Prop) [Decidable p] (c' : TelnetCodec),
        Closed (if p then c'.appendNawsIfEnabled else []) ∧
          charge (if p then c'.appendNawsIfEnabled else []) = 0 := by
      intro p _ c'
      split
      · exact appendNawsIfEnabled_outbound
      · exact ⟨closed_nil, rfl⟩
    dsimp only [DecodeResult.reply]
    refine ⟨h.1.append (hsize _ _).1, ?_⟩
    rw [charge_append h.1, (hsize _ _).2]
    exact h.2

theorem handleDo_remoteOptions (o : UInt8) :
    (c.handleDo o).1.remoteOptions = c.remoteOptions := by
  unfold handleDo
  split
  · rfl
  · dsimp only
    split
    · exact setLocalEcho_remoteOptions true
    · rfl

theorem handleDont_outbound (o : UInt8) :
    Closed (c.handleDont o).2.outbound ∧ charge (c.handleDont o).2.outbound ≤ 2 :=
  charge_if_appendCommand Command.wont rfl o
    (!(c.localOptions o).pendingEnable && (c.localOptions o).enabled)

theorem handleDont_remoteOptions (o : UInt8) :
    (c.handleDont o).1.remoteOptions = c.remoteOptions := by
  unfold handleDont
  dsimp only
  split
  · exact setLocalEcho_remoteOptions false
  · rfl

/-- A WONT is answered only for an option that is enabled. -/
theorem handleWont_outbound (o : UInt8) :
    Closed (c.handleWont o).2.outbound ∧
      charge (c.handleWont o).2.outbound ≤ if (c.remoteOptions o).enabled then 3 else 0 := by
  have h := charge_if_appendCommand Command.dont rfl o
    (!(c.remoteOptions o).pendingEnable && (c.remoteOptions o).enabled)
  refine ⟨h.1, ?_⟩
  cases he : (c.remoteOptions o).enabled with
  | true => exact h.2
  | false => simp [handleWont, DecodeResult.reply, he]

theorem handleWont_remoteOptions (o : UInt8) :
    (c.handleWont o).1.remoteOptions =
      Function.update c.remoteOptions o
        { enabled := false, pendingEnable := false, rejectionSent := false } := by
  unfold handleWont
  dsimp only
  split
  · exact setRemoteEcho_remoteOptions false
  · rfl

theorem handleWill_remoteOptions {o : UInt8} (ho : supportsRemote o = true) :
    (c.handleWill o).1.remoteOptions =
      Function.update c.remoteOptions o
        { enabled := true, pendingEnable := false, rejectionSent := false } := by
  unfold handleWill
  rw [ho]
  by_cases he : o = Opt.echo
  · simp [he, setRemote]
  · simp [he, setRemote]

/-- An accepted WILL costs a DO the first time, and a WONT where it ends the local echo. -/
theorem handleWill_outbound {o : UInt8} (ho : supportsRemote o = true) :
    Closed (c.handleWill o).2.outbound ∧
      charge (c.handleWill o).2.outbound ≤ 2 + if (c.remoteOptions o).enabled then 0 else 5 := by
  have hdo := charge_if_appendCommand Command.do rfl o
    (!(c.remoteOptions o).pendingEnable && !(c.remoteOptions o).enabled)
  have hdo' : charge (if (!(c.remoteOptions o).pendingEnable && !(c.remoteOptions o).enabled) = true
      then appendCommand Command.do o else []) ≤ if (c.remoteOptions o).enabled then 0 else 5 := by
    cases he : (c.remoteOptions o).enabled with
    | true => simp [charge_nil]
    | false =>
        have h5 : weight (Command.do, o) + 1 = 5 := rfl
        simpa [he, h5] using hdo.2
  unfold handleWill
  rw [ho]
  by_cases he : o = Opt.echo
  · have hrev := revokeLocalEcho_outbound (c := c.setRemote o
      { enabled := true, pendingEnable := false, rejectionSent := false })
    simp only [he, if_true, Bool.not_true, Bool.false_eq_true, if_false, DecodeResult.reply,
      DecodeResult.add_outbound] at hrev hdo hdo' ⊢
    refine ⟨hrev.1.append hdo.1, ?_⟩
    rw [charge_append hrev.1]
    exact Nat.add_le_add hrev.2 hdo'
  · simp only [he, if_false, Bool.not_true, Bool.false_eq_true, DecodeResult.reply,
      DecodeResult.add_outbound, DecodeResult.zero_outbound, List.nil_append]
    exact ⟨hdo.1, hdo'.trans (Nat.le_add_left _ _)⟩

theorem handleWill_rejected {o : UInt8} (ho : supportsRemote o = false) :
    Closed (c.handleWill o).2.outbound ∧ charge (c.handleWill o).2.outbound ≤ 3 := by
  unfold handleWill
  rw [ho]
  exact charge_if_appendCommand Command.dont rfl o (!(c.remoteOptions o).rejectionSent)

/-! ### A handled command is paid for -/

/-- The credit left once remote option `o` is set to `s`. -/
theorem credit_update {o : UInt8} {s : OptionState} (ha : c'.active = c.active)
    (hr : c'.remoteOptions = Function.update c.remoteOptions o s) (ho : supportsRemote o = true) :
    credit c' + (if (c.remoteOptions o).enabled then 0 else 4) =
      credit c + (if s.enabled then 0 else 4) := by
  unfold credit
  rw [ha, hr]
  simp only [supportsRemote, Bool.or_eq_true, beq_iff_eq] at ho
  rcases ho with rfl | rfl
  · have hne : Opt.suppressGoAhead ≠ Opt.echo := by decide
    rw [Function.update_self, Function.update_of_ne hne]
    omega
  · have hne : Opt.echo ≠ Opt.suppressGoAhead := by decide
    rw [Function.update_self, Function.update_of_ne hne]
    omega

/-- Remote options outside the supported ones have no credit. -/
theorem credit_update_other {o : UInt8} {s : OptionState} (ha : c'.active = c.active)
    (hr : c'.remoteOptions = Function.update c.remoteOptions o s) (ho : supportsRemote o = false) :
    credit c' = credit c := by
  simp only [supportsRemote, Bool.or_eq_false_iff, beq_eq_false_iff_ne, ne_eq] at ho
  unfold credit
  rw [ha, hr, Function.update_of_ne (Ne.symm ho.1), Function.update_of_ne (Ne.symm ho.2)]

theorem handleWill_paid (o : UInt8) :
    Closed (c.handleWill o).2.outbound ∧
      credit (c.handleWill o).1 + charge (c.handleWill o).2.outbound ≤ credit c + 3 := by
  have ha := (sameSession_handleWill (c := c) o).active
  cases ho : supportsRemote o with
  | true =>
      have hout := handleWill_outbound (c := c) ho
      have hcredit := credit_update ha (handleWill_remoteOptions ho) ho
      refine ⟨hout.1, ?_⟩
      have := hout.2
      simp only [if_true] at hcredit
      split_ifs at this hcredit <;> omega
  | false =>
      have hout := handleWill_rejected (c := c) ho
      have hcredit := credit_update_other (s :=
        { enabled := false, pendingEnable := false, rejectionSent := true }) ha
        (by unfold handleWill; rw [ho]; rfl) ho
      exact ⟨hout.1, by rw [hcredit]; exact Nat.add_le_add_left hout.2 _⟩

theorem handleWont_paid (o : UInt8) :
    Closed (c.handleWont o).2.outbound ∧
      credit (c.handleWont o).1 + charge (c.handleWont o).2.outbound ≤
        credit c + 1 + if (c.remoteOptions o).enabled then disablingCost else 0 := by
  have ha := (sameSession_handleWont (c := c) o).active
  have hr := handleWont_remoteOptions (c := c) o
  have hout := handleWont_outbound (c := c) o
  refine ⟨hout.1, ?_⟩
  have hcharge := hout.2
  unfold disablingCost
  cases ho : supportsRemote o with
  | true =>
      have hcredit := credit_update ha hr ho
      simp only [Bool.false_eq_true, if_false] at hcredit
      split_ifs at hcharge hcredit ⊢ <;> omega
  | false =>
      have hcredit := credit_update_other ha hr ho
      split_ifs at hcharge ⊢ <;> omega

/-- **A handled command pays for its answers**; a WONT that disables an option falls short by
`disablingCost`. -/
theorem handleOption_paid (verb o : UInt8) :
    Closed (c.handleOption verb o).2.outbound ∧
      credit (c.handleOption verb o).1 + charge (c.handleOption verb o).2.outbound ≤
        credit c + weight (verb, o) +
          if verb = Command.wont ∧ (c.remoteOptions o).enabled = true then disablingCost else 0 := by
  unfold handleOption
  by_cases h₁ : verb = Command.will
  · subst h₁
    have h := handleWill_paid (c := c) o
    exact ⟨h.1, h.2.trans (Nat.le_add_right _ _)⟩
  by_cases h₂ : verb = Command.wont
  · subst h₂
    have h := handleWont_paid (c := c) o
    simp only [true_and]
    exact h
  rw [if_neg h₁, if_neg h₂]
  by_cases h₃ : verb = Command.do
  · subst h₃
    have hcredit := credit_congr (sameSession_handleDo (c := c) o).active (handleDo_remoteOptions o)
    have hout := handleDo_outbound (c := c) o
    rw [if_pos rfl, hcredit]
    exact ⟨hout.1, (Nat.add_le_add_left hout.2 _).trans (Nat.le_add_right _ _)⟩
  by_cases h₄ : verb = Command.dont
  · subst h₄
    have hcredit := credit_congr (sameSession_handleDont (c := c) o).active
      (handleDont_remoteOptions o)
    have hout := handleDont_outbound (c := c) o
    rw [if_neg h₃, if_pos rfl, hcredit]
    exact ⟨hout.1, (Nat.add_le_add_left hout.2 _).trans (Nat.le_add_right _ _)⟩
  · rw [if_neg h₃, if_neg h₄]
    exact ⟨closed_nil, (Nat.le_add_right (credit c) _).trans (Nat.le_add_right _ _)⟩

/-! ### A received byte is paid for -/

/-- What a byte does: it moves the parser, and the command it completes pays for what is sent. -/
structure Paid (c : TelnetCodec) (byte : UInt8) (c' : TelnetCodec) (outbound : List UInt8) : Prop where
  parseState : c'.parseState = nextParse c.parseState byte
  closed : Closed outbound
  credit_le : credit c' + charge outbound ≤ credit c + weightOf (completed c.parseState byte) +
    if Disables c byte then disablingCost else 0

/-- A byte that sends nothing and leaves the options alone. -/
theorem Paid.silent {byte : UInt8} (hp : c'.parseState = nextParse c.parseState byte)
    (ha : c'.active = c.active) (hr : c'.remoteOptions = c.remoteOptions) : Paid c byte c' [] :=
  ⟨hp, closed_nil, by rw [credit_congr ha hr, charge_nil]; omega⟩

theorem handleSubnegotiation_outbound (o : UInt8) (payload : List UInt8) :
    Closed (c.handleSubnegotiation o payload) ∧ charge (c.handleSubnegotiation o payload) = 0 := by
  unfold handleSubnegotiation
  split
  · have h := parse_appendSubnegotiation Opt.terminalType (Suboption.is :: c.config.terminalType)
    exact ⟨h.1, by unfold charge; rw [h.2]; rfl⟩
  · exact ⟨closed_nil, rfl⟩

/-- A byte kept for a subnegotiation changes nothing else. -/
theorem pushSubnegotiation_ok {byte : UInt8} (h : c.pushSubnegotiation byte = (c', .ok ())) :
    c' = { c with subnegotiation := c.subnegotiation ++ [byte] } := by
  unfold pushSubnegotiation at h
  split at h
  · simp at h
  · exact (Prod.mk.inj h).1.symm

theorem parseByte_paid {byte : UInt8} (h : c.parseByte byte = (c', .ok r)) :
    Paid c byte c' r.outbound := by
  unfold parseByte at h
  cases hs : c.parseState with
  | data =>
      simp only [hs] at h
      split_ifs at h with hb <;>
        (obtain ⟨rfl, hr⟩ := Prod.mk.inj h; obtain rfl := Except.ok.inj hr)
      · exact .silent (by simp [hs, nextParse, hb, setParse]) rfl rfl
      · exact .silent (by simp [hs, nextParse, hb]) rfl rfl
  | iac =>
      simp only [hs] at h
      split_ifs at h with hb hv hsb <;>
        (obtain ⟨rfl, hr⟩ := Prod.mk.inj h; obtain rfl := Except.ok.inj hr)
      · exact .silent (by simp [hs, nextParse, hb, setParse]) rfl rfl
      · exact .silent (by simp [hs, nextParse, hb, hv, setParse]) rfl rfl
      · exact .silent (by rw [hs]; subst hsb; rfl) rfl rfl
      · exact .silent (by simp [hs, nextParse, hb, hv, hsb, setParse]) rfl rfl
  | option verb =>
      simp only [hs] at h
      obtain ⟨rfl, hr⟩ := Prod.mk.inj h
      obtain rfl := Except.ok.inj hr
      have hpaid := handleOption_paid (c := c) verb byte
      refine ⟨by simp [hs, nextParse, setParse], hpaid.1, ?_⟩
      have hw : weightOf (completed (.option verb) byte) = weight (verb, byte) := by
        simp [completed, weightOf]
      have hdis : Disables c byte ↔ verb = Command.wont ∧ (c.remoteOptions byte).enabled = true := by
        unfold Disables
        rw [hs, ParseState.option.injEq]
      simp only [hs, hw, hdis]
      exact hpaid.2
  | subnegotiationOption =>
      simp only [hs] at h
      obtain ⟨rfl, hr⟩ := Prod.mk.inj h
      obtain rfl := Except.ok.inj hr
      exact .silent (by simp [hs, nextParse]) rfl rfl
  | subnegotiationData o =>
      simp only [hs] at h
      split_ifs at h with hb
      · obtain ⟨rfl, hr⟩ := Prod.mk.inj h
        obtain rfl := Except.ok.inj hr
        exact .silent (by simp [hs, nextParse, hb, setParse]) rfl rfl
      · rcases hp : c.pushSubnegotiation byte with ⟨c₁, e | u⟩ <;> simp only [hp] at h
        · simp at h
        · obtain ⟨rfl, hr⟩ := Prod.mk.inj h
          obtain rfl := Except.ok.inj hr
          obtain rfl := pushSubnegotiation_ok hp
          exact .silent (by simp [hs, nextParse, hb]) rfl rfl
  | subnegotiationIac o =>
      simp only [hs] at h
      split_ifs at h with hse hb
      · obtain ⟨rfl, hr⟩ := Prod.mk.inj h
        obtain rfl := Except.ok.inj hr
        refine ⟨by simp [hs, nextParse, hse, setParse], (handleSubnegotiation_outbound _ _).1, ?_⟩
        refine le_trans (Nat.add_le_add (credit_congr rfl rfl).le
          ((handleSubnegotiation_outbound _ _).2.le.trans (Nat.zero_le _))) (Nat.le_add_right _ _)
      · rcases hp : c.pushSubnegotiation Command.iac with ⟨c₁, e | u⟩ <;> simp only [hp] at h
        · simp at h
        · obtain ⟨rfl, hr⟩ := Prod.mk.inj h
          obtain rfl := Except.ok.inj hr
          obtain rfl := pushSubnegotiation_ok hp
          exact .silent (by simp [hs, nextParse, hse, setParse]) rfl rfl
      · obtain ⟨rfl, hr⟩ := Prod.mk.inj h
        obtain rfl := Except.ok.inj hr
        exact .silent (by simp [hs, nextParse, hse, setParse]) rfl rfl

/-- The offers of an activated codec are paid by its credit. -/
theorem activate_paid (h : c.active = false) :
    Closed c.activate.2.outbound ∧ credit c.activate.1 + charge c.activate.2.outbound = credit c := by
  have hout : c.activate.2.outbound = appendCommand Command.do Opt.suppressGoAhead ++
      appendCommand Command.will Opt.terminalType ++ appendCommand Command.will Opt.naws := rfl
  rw [hout]
  refine ⟨rfl, ?_⟩
  have hcharge : charge (appendCommand Command.do Opt.suppressGoAhead ++
      appendCommand Command.will Opt.terminalType ++ appendCommand Command.will Opt.naws) = 13 := rfl
  have hecho : (c.activate.1.remoteOptions Opt.echo) = c.remoteOptions Opt.echo := rfl
  have hsga : (c.activate.1.remoteOptions Opt.suppressGoAhead).enabled =
      (c.remoteOptions Opt.suppressGoAhead).enabled := rfl
  unfold credit
  rw [hcharge, hecho, hsga, activate_active, h]
  simp only [if_true, Bool.false_eq_true, if_false]
  omega

/-- A codec that waits for its first IAC is between commands. -/
def Synced (c : TelnetCodec) : Prop := c.active = false → c.parseState = .data

theorem receiveByte_paid {byte : UInt8} (hc : c.Synced) (h : c.receiveByte byte = (c', .ok r)) :
    Paid c byte c' r.outbound ∧ c'.Synced := by
  unfold receiveByte at h
  cases ha : c.active with
  | true =>
      rw [if_pos ha] at h
      refine ⟨parseByte_paid h, fun hf => ?_⟩
      have := parseByte_active (c := c) byte
      rw [h, ha] at this
      simp [hf] at this
  | false =>
      have hp := hc ha
      simp only [ha, Bool.false_eq_true, if_false] at h
      split_ifs at h with hb
      · obtain ⟨c₁, w₁, w₂, h₁, h₂, rfl⟩ := andThen_eq_ok.mp h
        obtain ⟨rfl, hw⟩ := Prod.mk.inj h₁
        obtain rfl := Except.ok.inj hw
        have hps : c.activate.1.parseState = .data := hp
        have hopen : c.activate.1.parseByte byte = (c.activate.1.setParse .iac, .ok 0) := by
          simp [parseByte, hps, hb]
        rw [hopen] at h₂
        obtain ⟨rfl, hw₂⟩ := Prod.mk.inj h₂
        obtain rfl := Except.ok.inj hw₂
        obtain ⟨hclosed, hcredit⟩ := activate_paid ha
        rw [add_zero]
        refine ⟨⟨by simp [hp, nextParse, hb, setParse], hclosed, ?_⟩, fun hf => absurd hf (by simp)⟩
        have : credit (c.activate.1.setParse .iac) = credit c.activate.1 := credit_congr rfl rfl
        omega
      · obtain ⟨rfl, hr⟩ := Prod.mk.inj h
        obtain rfl := Except.ok.inj hr
        exact ⟨.silent (by simp [hp, nextParse, hb]) rfl rfl, hc⟩

/-- How many WONTs of a chunk disable an option of the codec that receives it. -/
def disablings (c : TelnetCodec) (chunk : List UInt8) : ℕ := Feed.count receiveByte Disables c chunk

/-- A byte that disables an option ends a command. -/
theorem disables_le (c : TelnetCodec) (byte : UInt8) :
    (if Disables c byte then 1 else 0) ≤ (completed c.parseState byte).length := by
  split_ifs with hd
  · rw [hd.1]; rfl
  · exact Nat.zero_le _

/-- **The bytes of a frame pay for what their codec sends.** -/
theorem feed_paid {bytes : List UInt8} : ∀ {c c' : TelnetCodec} {r : DecodeResult}, c.Synced →
    feed receiveByte c bytes = (c', .ok r) →
    c'.Synced ∧ c'.parseState = endParse c.parseState bytes ∧ Closed r.outbound ∧
      c.disablings bytes ≤ (commandsFrom c.parseState bytes).length ∧
      ∀ rest, potential c' rest + charge r.outbound ≤
        potential c (bytes ++ rest) + disablingCost * c.disablings bytes := by
  induction bytes with
  | nil =>
      intro c c' r hc h
      obtain ⟨rfl, hr⟩ := Prod.mk.inj h
      obtain rfl := Except.ok.inj hr
      exact ⟨hc, rfl, closed_nil, le_rfl, fun rest => le_rfl⟩
  | cons b bs ih =>
      intro c c' r hc h
      obtain ⟨c₁, w₁, w₂, h₁, h₂, rfl⟩ := andThen_eq_ok.mp h
      obtain ⟨hpaid, hc₁⟩ := receiveByte_paid hc h₁
      obtain ⟨hc', hps, hclosed, hdis, hle⟩ := ih hc₁ h₂
      have hcount : c.disablings (b :: bs) =
          (if Disables c b then 1 else 0) + c₁.disablings bs := by
        unfold disablings
        rw [Feed.count, h₁]
      refine ⟨hc', by rw [hps, hpaid.parseState]; rfl, hpaid.closed.append hclosed, ?_,
        fun rest => ?_⟩
      · have hbyte := disables_le c b
        rw [hpaid.parseState] at hdis
        rw [hcount, commandsFrom, List.length_append]
        omega
      · have hrest := hle rest
        have hbyte := hpaid.credit_le
        rw [DecodeResult.add_outbound, charge_append hpaid.closed, hcount, mul_add]
        have hcost : disablingCost * (if Disables c b then 1 else 0) =
            if Disables c b then disablingCost else 0 := by
          split_ifs <;> rfl
        have hpot : potential c (b :: bs ++ rest) = credit c + weightOf (completed c.parseState b) +
            weightOf (commandsFrom c₁.parseState (bs ++ rest)) := by
          unfold potential
          rw [List.cons_append, commandsFrom, weightOf_append, hpaid.parseState]
          omega
        unfold potential at hrest hpot ⊢
        omega

end TelnetCodec

/-! ### Two codecs -/

/-- Two codecs and the bytes in flight to each. -/
structure Net where
  a : TelnetCodec
  b : TelnetCodec
  toA : List UInt8
  toB : List UInt8

/-- What a delivery exchanges: the number of option commands it sends, and of the WONTs it delivers
for an option that their receiver has enabled. -/
structure Traffic where
  sent : ℕ
  disabling : ℕ

/-- Deliver a chunk to one side. -/
inductive Deliver : Net → Traffic → Net → Prop
  | toA {a b a' : TelnetCodec} {chunk rest toB : List UInt8} {r : DecodeResult} :
      a.receive chunk = (a', .ok r) →
      Deliver ⟨a, b, chunk ++ rest, toB⟩ ⟨(optionCommands r.outbound).length, a.disablings chunk⟩
        ⟨a', b, rest, toB ++ r.outbound⟩
  | toB {a b b' : TelnetCodec} {chunk rest toA : List UInt8} {r : DecodeResult} :
      b.receive chunk = (b', .ok r) →
      Deliver ⟨a, b, toA, chunk ++ rest⟩ ⟨(optionCommands r.outbound).length, b.disablings chunk⟩
        ⟨a, b', toA ++ r.outbound, rest⟩

/-- The bytes of a list of commands. -/
def commandBytes (commands : List (UInt8 × UInt8)) : List UInt8 :=
  commands.flatMap fun command => appendCommand command.1 command.2

theorem commandBytes_closed {commands : List (UInt8 × UInt8)}
    (h : ∀ command ∈ commands, isOptionCommand command.1 = true) :
    Closed (commandBytes commands) ∧ optionCommands (commandBytes commands) = commands := by
  induction commands with
  | nil => exact ⟨rfl, rfl⟩
  | cons command commands ih =>
      obtain ⟨hclosed, hcmd⟩ := ih fun d hd => h d (List.mem_cons_of_mem _ hd)
      have hv := h command List.mem_cons_self
      have hcons : commandBytes (command :: commands) =
          appendCommand command.1 command.2 ++ commandBytes commands := rfl
      rw [hcons, optionCommands_append (closed_appendCommand hv _),
        optionCommands_appendCommand hv, hcmd]
      exact ⟨(closed_appendCommand hv _).append hclosed, rfl⟩

namespace Net

/-- Both channels end between commands. -/
structure Framed (n : Net) : Prop where
  a_synced : n.a.Synced
  b_synced : n.b.Synced
  toA_closed : endParse n.a.parseState n.toA = .data
  toB_closed : endParse n.b.parseState n.toB = .data

def potential (n : Net) : ℕ := Telnet.potential n.a n.toA + Telnet.potential n.b n.toB

/-- The option commands in flight. -/
def inFlight (n : Net) : ℕ :=
  (commandsFrom n.a.parseState n.toA).length + (commandsFrom n.b.parseState n.toB).length

/-- What one side sends joins the commands in flight to the other. -/
theorem commandsFrom_sent {c : TelnetCodec} {bytes : List UInt8} (out : List UInt8)
    (h : endParse c.parseState bytes = .data) :
    commandsFrom c.parseState (bytes ++ out) =
      commandsFrom c.parseState bytes ++ optionCommands out := by
  rw [commandsFrom_append, h]
  rfl

theorem deliver_framed {n n' : Net} {l : Traffic} (hn : n.Framed) (h : Deliver n l n') :
    n'.Framed := by
  cases h with
  | toA hrec =>
      obtain ⟨hs, hps, hclosed, -⟩ :=
        TelnetCodec.feed_paid hn.a_synced (TelnetCodec.feed_of_receive hrec)
      refine ⟨hs, hn.b_synced, ?_, ?_⟩
      · rw [hps, ← endParse_append]; exact hn.toA_closed
      · rw [endParse_append, hn.toB_closed]; exact hclosed
  | toB hrec =>
      obtain ⟨hs, hps, hclosed, -⟩ :=
        TelnetCodec.feed_paid hn.b_synced (TelnetCodec.feed_of_receive hrec)
      refine ⟨hn.a_synced, hs, ?_, ?_⟩
      · rw [endParse_append, hn.toA_closed]; exact hclosed
      · rw [hps, ← endParse_append]; exact hn.toB_closed

/-- **Every delivery pays for the commands it sends**, a disabling WONT by `disablingCost`. -/
theorem deliver_pays {n n' : Net} {l : Traffic} (hn : n.Framed) (h : Deliver n l n') :
    n'.potential + l.sent ≤ n.potential + disablingCost * l.disabling := by
  cases h with
  | @toA a b a' chunk rest toB r hrec =>
      obtain ⟨-, -, -, -, hle⟩ :=
        TelnetCodec.feed_paid hn.a_synced (TelnetCodec.feed_of_receive hrec)
      have hsent := commandsFrom_sent r.outbound hn.toB_closed
      have := hle rest
      unfold charge at this
      unfold potential Telnet.potential at *
      simp only [hsent, weightOf_append] at this ⊢
      omega
  | @toB a b b' chunk rest toA r hrec =>
      obtain ⟨-, -, -, -, hle⟩ :=
        TelnetCodec.feed_paid hn.b_synced (TelnetCodec.feed_of_receive hrec)
      have hsent := commandsFrom_sent r.outbound hn.toA_closed
      have := hle rest
      unfold charge at this
      unfold potential Telnet.potential at *
      simp only [hsent, weightOf_append] at this ⊢
      omega

/-- A disabling WONT leaves the commands in flight. -/
theorem deliver_inFlight {n n' : Net} {l : Traffic} (hn : n.Framed) (h : Deliver n l n') :
    n'.inFlight + l.disabling ≤ n.inFlight + l.sent := by
  cases h with
  | @toA a b a' chunk rest toB r hrec =>
      obtain ⟨-, hps, -, hdis, -⟩ :=
        TelnetCodec.feed_paid hn.a_synced (TelnetCodec.feed_of_receive hrec)
      have hsent := commandsFrom_sent r.outbound hn.toB_closed
      unfold inFlight
      simp only [hsent, hps, commandsFrom_append chunk rest, List.length_append] at hdis ⊢
      omega
  | @toB a b b' chunk rest toA r hrec =>
      obtain ⟨-, hps, -, hdis, -⟩ :=
        TelnetCodec.feed_paid hn.b_synced (TelnetCodec.feed_of_receive hrec)
      have hsent := commandsFrom_sent r.outbound hn.toA_closed
      unfold inFlight
      simp only [hsent, hps, commandsFrom_append chunk rest, List.length_append] at hdis ⊢
      omega

/-- A run from a framed net stays framed, and its traffic is accounted for. -/
theorem traffic_bounds {n : ℕ → Net} {traffic : ℕ → Traffic} (h₀ : (n 0).Framed)
    (hrun : ∀ i, Deliver (n i) (traffic i) (n (i + 1))) (k : ℕ) :
    (n k).Framed ∧
      (n k).potential + ∑ i ∈ range k, (traffic i).sent ≤
        (n 0).potential + disablingCost * ∑ i ∈ range k, (traffic i).disabling ∧
      (n k).inFlight + ∑ i ∈ range k, (traffic i).disabling ≤
        (n 0).inFlight + ∑ i ∈ range k, (traffic i).sent := by
  induction k with
  | zero => simp [h₀]
  | succ k ih =>
      obtain ⟨hframed, hpot, hflight⟩ := ih
      have hp := deliver_pays hframed (hrun k)
      have hf := deliver_inFlight hframed (hrun k)
      refine ⟨deliver_framed hframed (hrun k), ?_, ?_⟩
      · rw [sum_range_succ, sum_range_succ, mul_add]
        omega
      · rw [sum_range_succ, sum_range_succ]
        omega

/-- **Negotiation ends exactly in the runs that deliver finitely many disabling WONTs**: whatever
codecs that are between commands and whatever option commands are in flight at first. -/
theorem negotiation_ends_iff {n : ℕ → Net} {traffic : ℕ → Traffic}
    (hrun : ∀ i, Deliver (n i) (traffic i) (n (i + 1)))
    (ha : (n 0).a.parseState = .data) (hb : (n 0).b.parseState = .data)
    {toA toB : List (UInt8 × UInt8)}
    (htoA : (n 0).toA = commandBytes toA ∧ ∀ command ∈ toA, isOptionCommand command.1 = true)
    (htoB : (n 0).toB = commandBytes toB ∧ ∀ command ∈ toB, isOptionCommand command.1 = true) :
    (∃ N, ∀ k, ∑ i ∈ range k, (traffic i).sent ≤ N) ↔
      ∃ N, ∀ k, ∑ i ∈ range k, (traffic i).disabling ≤ N := by
  have hframed : (n 0).Framed := by
    refine ⟨fun _ => ha, fun _ => hb, ?_, ?_⟩
    · rw [ha, htoA.1]; exact (commandBytes_closed htoA.2).1
    · rw [hb, htoB.1]; exact (commandBytes_closed htoB.2).1
  constructor
  · rintro ⟨N, hN⟩
    refine ⟨(n 0).inFlight + N, fun k => ?_⟩
    have := (traffic_bounds hframed hrun k).2.2
    have := hN k
    omega
  · rintro ⟨N, hN⟩
    refine ⟨(n 0).potential + disablingCost * N, fun k => ?_⟩
    have := (traffic_bounds hframed hrun k).2.1
    have := Nat.mul_le_mul_left disablingCost (hN k)
    omega

end Net

/-- A fresh codec that receives the peer's WILL for its own offer, and nothing after it. -/
def acknowledged : ℕ → Net
  | 0 => ⟨.new .default, .new .default, commandBytes [(Command.will, Opt.suppressGoAhead)], []⟩
  | _ + 1 =>
    ⟨((TelnetCodec.new .default).receive (commandBytes [(Command.will, Opt.suppressGoAhead)])).1,
      .new .default, [], commandBytes [(Command.do, Opt.suppressGoAhead),
        (Command.will, Opt.terminalType), (Command.will, Opt.naws)]⟩

theorem negotiation_ends_acknowledged :
    (∃ N, ∀ k, ∑ i ∈ range k, (if i = 0 then Traffic.mk 3 0 else ⟨0, 0⟩).sent ≤ N) ↔
      ∃ N, ∀ k, ∑ i ∈ range k, (if i = 0 then Traffic.mk 3 0 else ⟨0, 0⟩).disabling ≤ N := by
  have hdeliver : ∀ i, Deliver (acknowledged i) (if i = 0 then Traffic.mk 3 0 else ⟨0, 0⟩)
      (acknowledged (i + 1)) := by
    intro i
    cases i with
    | zero =>
        exact @Deliver.toA (.new .default) _ _
          (commandBytes [(Command.will, Opt.suppressGoAhead)]) [] _ _ rfl
    | succ i => exact @Deliver.toA (acknowledged 1).a _ _ [] [] _ 0 rfl
  have hquiet : (acknowledged 0).toB = commandBytes [] ∧
      ∀ command ∈ ([] : List (UInt8 × UInt8)), isOptionCommand command.1 = true :=
    ⟨rfl, fun _ h => absurd h List.not_mem_nil⟩
  exact Net.negotiation_ends_iff hdeliver rfl rfl
    ⟨rfl, List.forall_iff_forall_mem.mp (by decide)⟩ hquiet

/-! ### The endless negotiation of ECHO -/

namespace TelnetCodec

variable {c : TelnetCodec}

/-- An active codec between commands, with the ECHO options settled at `localEcho` and
`remoteEcho`. -/
structure EchoSettled (localEcho remoteEcho : Bool) (c : TelnetCodec) : Prop where
  available : c.Available
  parseState : c.parseState = .data
  localEnabled : (c.localOptions Opt.echo).enabled = localEcho
  localPending : (c.localOptions Opt.echo).pendingEnable = false
  remoteEnabled : (c.remoteOptions Opt.echo).enabled = remoteEcho
  remotePending : (c.remoteOptions Opt.echo).pendingEnable = false

def dontWill : List UInt8 :=
  appendCommand Command.dont Opt.echo ++ appendCommand Command.will Opt.echo

def wontDo : List UInt8 :=
  appendCommand Command.wont Opt.echo ++ appendCommand Command.do Opt.echo

/-- A command received between commands is handled and leaves the codec between commands. -/
theorem feed_appendCommand (hp : c.parseState = .data) {verb : UInt8}
    (hv : isOptionCommand verb = true) (o : UInt8) :
    feed parseByte c (appendCommand verb o) =
      (((c.setParse (.option verb)).handleOption verb o).1.setParse .data,
        .ok ((c.setParse (.option verb)).handleOption verb o).2) := by
  have hne : verb ≠ Command.iac := by rintro rfl; exact absurd hv (by decide)
  have h₁ : c.parseByte Command.iac = (c.setParse .iac, .ok 0) := by simp [parseByte, hp]
  have h₂ : (c.setParse .iac).parseByte verb = (c.setParse (.option verb), .ok 0) := by
    simp [parseByte, setParse, hne, hv]
  have h₃ : (c.setParse (.option verb)).parseByte o =
      (((c.setParse (.option verb)).handleOption verb o).1.setParse .data,
        .ok ((c.setParse (.option verb)).handleOption verb o).2) := by
    simp [parseByte, setParse]
  simp only [appendCommand, feed, h₁, h₂, h₃, andThen, add_zero, zero_add]

@[simp] theorem setRemoteEcho_localOptions (b : Bool) :
    (c.setRemoteEcho b).1.localOptions = c.localOptions := by
  unfold setRemoteEcho; split <;> rfl

@[simp] theorem setLocalEcho_localOptions (b : Bool) :
    (c.setLocalEcho b).1.localOptions = c.localOptions := by
  unfold setLocalEcho; split <;> rfl

@[simp] theorem revokeLocalEcho_of_disabled (h : (c.localOptions Opt.echo).enabled = false) :
    c.revokeLocalEcho = (c, 0) := by
  unfold revokeLocalEcho
  rw [h]
  rfl

theorem handleOption_dont (o : UInt8) : c.handleOption Command.dont o = c.handleDont o := rfl
theorem handleOption_will (o : UInt8) : c.handleOption Command.will o = c.handleWill o := rfl
theorem handleOption_wont (o : UInt8) : c.handleOption Command.wont o = c.handleWont o := rfl
theorem handleOption_do (o : UInt8) : c.handleOption Command.do o = c.handleDo o := rfl

/-- A codec settled at one pair of ECHO options answers a command and settles at another. -/
def Answers (localEcho remoteEcho : Bool) (c : TelnetCodec) (bytes answer : List UInt8) : Prop :=
  ∃ c' r, feed parseByte c bytes = (c', .ok r) ∧ r.outbound = answer ∧
    EchoSettled localEcho remoteEcho c'

theorem Answers.append {l r l' r' : Bool} {bytes bytes' answer answer' : List UInt8}
    (h : Answers l r c bytes answer)
    (h' : ∀ c', EchoSettled l r c' → Answers l' r' c' bytes' answer') :
    Answers l' r' c (bytes ++ bytes') (answer ++ answer') := by
  obtain ⟨c₁, r₁, hfeed₁, hout₁, hs₁⟩ := h
  obtain ⟨c₂, r₂, hfeed₂, hout₂, hs₂⟩ := h' c₁ hs₁
  refine ⟨c₂, r₁ + r₂, ?_, ?_, hs₂⟩
  · rw [feed_append]
    exact andThen_eq_ok.mpr ⟨c₁, r₁, r₂, hfeed₁, hfeed₂, rfl⟩
  · rw [DecodeResult.add_outbound, hout₁, hout₂]

/-- A command is answered as its handler answers it. -/
theorem answers_command {l r l' r' : Bool} (h : EchoSettled l r c) {verb : UInt8}
    (hv : isOptionCommand verb = true) {answer : List UInt8} {d : TelnetCodec}
    {result : DecodeResult}
    (hd : (c.setParse (.option verb)).handleOption verb Opt.echo = (d, result))
    (hanswer : result.outbound = answer)
    (hlocal : (d.localOptions Opt.echo).enabled = l' ∧
      (d.localOptions Opt.echo).pendingEnable = false)
    (hremote : (d.remoteOptions Opt.echo).enabled = r' ∧
      (d.remoteOptions Opt.echo).pendingEnable = false) :
    Answers l' r' c (appendCommand verb Opt.echo) answer := by
  have hsame := sameSession_handleOption (c := c.setParse (.option verb)) verb Opt.echo
  rw [hd] at hsame
  refine ⟨d.setParse .data, result, ?_, hanswer, ?_⟩
  · rw [feed_appendCommand h.parseState hv, hd]
  · exact ⟨⟨hsame.active.trans h.available.1, hsame.poisoned.trans h.available.2⟩, rfl,
      hlocal.1, hlocal.2, hremote.1, hremote.2⟩

theorem answers_dont {r : Bool} (h : EchoSettled true r c) :
    Answers false r c (appendCommand Command.dont Opt.echo)
      (appendCommand Command.wont Opt.echo) := by
  refine answers_command h (by decide)
    ((handleOption_dont Opt.echo).trans Prod.mk.eta.symm) ?_ ?_ ?_
  · simp [handleDont, DecodeResult.reply, setParse, h.localEnabled, h.localPending]
  · simp [handleDont, setParse, setLocal, h.localEnabled]
  · simp [handleDont, setParse, setLocal, h.localEnabled, h.remoteEnabled,
      h.remotePending]

theorem answers_will (h : EchoSettled false false c) :
    Answers false true c (appendCommand Command.will Opt.echo)
      (appendCommand Command.do Opt.echo) := by
  refine answers_command h (by decide)
    ((handleOption_will Opt.echo).trans Prod.mk.eta.symm) ?_ ?_ ?_
  · simp [handleWill, supportsRemote, DecodeResult.reply, setParse, setRemote,
      h.localEnabled, h.remoteEnabled, h.remotePending]
  · simp [handleWill, supportsRemote, setParse, setRemote, h.localEnabled,
      h.localPending]
  · simp [handleWill, supportsRemote, setParse, setRemote, h.localEnabled]

theorem answers_wont {l : Bool} (h : EchoSettled l true c) :
    Answers l false c (appendCommand Command.wont Opt.echo)
      (appendCommand Command.dont Opt.echo) := by
  refine answers_command h (by decide)
    ((handleOption_wont Opt.echo).trans Prod.mk.eta.symm) ?_ ?_ ?_
  · simp [handleWont, DecodeResult.reply, setParse, h.remoteEnabled,
      h.remotePending]
  · simp [handleWont, setParse, setRemote, h.localEnabled, h.localPending]
  · simp [handleWont, setParse, setRemote]

theorem answers_do {r : Bool} (h : EchoSettled false r c) :
    Answers true r c (appendCommand Command.do Opt.echo)
      (appendCommand Command.will Opt.echo) := by
  have hne : Opt.echo ≠ Opt.naws := by decide
  refine answers_command h (by decide)
    ((handleOption_do Opt.echo).trans Prod.mk.eta.symm) ?_ ?_ ?_
  · simp [handleDo, supportsLocal, DecodeResult.reply, setParse, h.localEnabled, h.localPending,
      hne]
  · simp [handleDo, supportsLocal, setParse, setLocal, h.localEnabled]
  · simp [handleDo, supportsLocal, setParse, setLocal, h.localEnabled, h.remoteEnabled,
      h.remotePending]

/-- A settled codec and the commands in flight to it that keep it negotiating. -/
def EchoLoop (c : TelnetCodec) (bytes : List UInt8) : Prop :=
  (EchoSettled true false c ∧ bytes = dontWill) ∨ (EchoSettled false true c ∧ bytes = wontDo)

theorem EchoLoop.receive {bytes : List UInt8} (h : EchoLoop c bytes) :
    ∃ c' r, c.receive bytes = (c', .ok r) ∧ EchoLoop c' r.outbound := by
  rcases h with ⟨hs, rfl⟩ | ⟨hs, rfl⟩
  · obtain ⟨c', r, hfeed, hout, hs'⟩ := (answers_dont hs).append fun _ => answers_will
    refine ⟨c', r, ?_, Or.inr ⟨hs', hout⟩⟩
    rw [receive_of_active hs.available.1 hs.available.2 (by decide)]
    exact hfeed
  · obtain ⟨c', r, hfeed, hout, hs'⟩ := (answers_wont hs).append fun _ => answers_do
    refine ⟨c', r, ?_, Or.inl ⟨hs', hout⟩⟩
    rw [receive_of_active hs.available.1 hs.available.2 (by decide)]
    exact hfeed

theorem EchoLoop.commands {bytes : List UInt8} (h : EchoLoop c bytes) :
    0 < (optionCommands bytes).length := by
  rcases h with ⟨-, rfl⟩ | ⟨-, rfl⟩ <;> decide

end TelnetCodec

/-- Two fresh codecs that receive alike, DO ECHO at first: after each round, the codec and the bytes
in flight to it. -/
def mirror : ℕ → TelnetCodec × List UInt8
  | 0 => (.new .default, commandBytes [(Command.do, Opt.echo)])
  | i + 1 =>
    match (mirror i).1.receive (mirror i).2 with
    | (c, .ok r) => (c, r.outbound)
    | (c, .error _) => (c, [])

theorem mirror_succ {i : ℕ} {c : TelnetCodec} {r : DecodeResult}
    (h : (mirror i).1.receive (mirror i).2 = (c, .ok r)) : mirror (i + 1) = (c, r.outbound) := by
  rw [mirror, h]

/-- From the third round on the codecs are in the loop. -/
theorem mirror_echoLoop (i : ℕ) : TelnetCodec.EchoLoop (mirror (i + 3)).1 (mirror (i + 3)).2 := by
  induction i with
  | zero => exact Or.inl ⟨⟨⟨rfl, rfl⟩, rfl, rfl, rfl, rfl, rfl⟩, rfl⟩
  | succ i ih =>
      obtain ⟨c', r, hrec, hloop⟩ := ih.receive
      rw [mirror_succ hrec]
      exact hloop

/-- Every round sends a command. -/
theorem mirror_receive (i : ℕ) :
    ∃ r, (mirror i).1.receive (mirror i).2 = ((mirror (i + 1)).1, .ok r) ∧
      r.outbound = (mirror (i + 1)).2 ∧ 0 < (optionCommands r.outbound).length := by
  match i with
  | 0 => exact ⟨_, rfl, rfl, by decide⟩
  | 1 => exact ⟨_, rfl, rfl, by decide⟩
  | 2 => exact ⟨_, rfl, rfl, by decide⟩
  | i + 3 =>
      obtain ⟨c', r, hrec, hloop⟩ := (mirror_echoLoop i).receive
      rw [mirror_succ hrec]
      exact ⟨r, hrec, rfl, hloop.commands⟩

/-- A round of the two codecs is two deliveries. -/
def mirrorNet (k : ℕ) : Net :=
  let (c, bytes) := mirror (k / 2)
  let (c', bytes') := mirror (k / 2 + 1)
  if k % 2 = 0 then ⟨c, c, bytes, bytes⟩ else ⟨c', c, [], bytes ++ bytes'⟩

theorem mirrorNet_even {k : ℕ} (hk : k % 2 = 0) :
    mirrorNet k = ⟨(mirror (k / 2)).1, (mirror (k / 2)).1, (mirror (k / 2)).2,
      (mirror (k / 2)).2⟩ := by
  simp [mirrorNet, hk]

theorem mirrorNet_odd {k : ℕ} (hk : k % 2 = 1) :
    mirrorNet k = ⟨(mirror (k / 2 + 1)).1, (mirror (k / 2)).1, [],
      (mirror (k / 2)).2 ++ (mirror (k / 2 + 1)).2⟩ := by
  simp [mirrorNet, hk]

theorem mirrorNet_deliver (k : ℕ) :
    ∃ traffic, Deliver (mirrorNet k) traffic (mirrorNet (k + 1)) ∧ 0 < traffic.sent := by
  obtain ⟨r, hrec, hout, hpos⟩ := mirror_receive (k / 2)
  rw [hout] at hpos
  by_cases hk : k % 2 = 0
  · have hdiv : (k + 1) / 2 = k / 2 := by omega
    have hdel := @Deliver.toA _ (mirror (k / 2)).1 _ _ [] (mirror (k / 2)).2 _ hrec
    rw [List.append_nil, hout] at hdel
    rw [mirrorNet_even hk, mirrorNet_odd (by omega), hdiv]
    exact ⟨_, hdel, hpos⟩
  · have hdiv : (k + 1) / 2 = k / 2 + 1 := by omega
    have hdel := @Deliver.toB (mirror (k / 2 + 1)).1 _ _ _ (mirror (k / 2 + 1)).2 [] _ hrec
    rw [List.nil_append, hout] at hdel
    rw [mirrorNet_odd (by omega), mirrorNet_even (by omega), hdiv]
    exact ⟨_, hdel, hpos⟩

/-- **DO ECHO in both directions between two fresh codecs is negotiated for ever.** -/
theorem negotiation_loops :
    ∃ (n : ℕ → Net) (traffic : ℕ → Traffic),
      n 0 = ⟨.new .default, .new .default, commandBytes [(Command.do, Opt.echo)],
        commandBytes [(Command.do, Opt.echo)]⟩ ∧
      (∀ i, Deliver (n i) (traffic i) (n (i + 1))) ∧
      ¬ ∃ N, ∀ k, ∑ i ∈ range k, (traffic i).sent ≤ N := by
  choose traffic hdel hpos using mirrorNet_deliver
  refine ⟨mirrorNet, traffic, rfl, hdel, ?_⟩
  rintro ⟨N, hN⟩
  have hsum : ∀ k, k ≤ ∑ i ∈ range k, (traffic i).sent := by
    intro k
    induction k with
    | zero => exact Nat.zero_le _
    | succ k ih =>
        have := hpos k
        rw [sum_range_succ]
        omega
  have := hsum (N + 1)
  have := hN (N + 1)
  omega

end Netcatty.Telnet
