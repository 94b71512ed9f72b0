import Netcatty.Library.Runs
import Netcatty.Telnet.Negotiation

/-! # The option state of a codec

`Session` is a codec with the bytes it has written since it was activated.  In every state of a
session the echo flag agrees with the option table, only supported options are enabled, and the last
window size written is the current one (`Session.options_consistent`).  Local and remote ECHO exclude
each other as long as no DO ECHO is handled while the peer echoes (`echoExclusive_after`): WILL ECHO
revokes the local option, DO ECHO does not look at the remote one. -/

namespace Netcatty.Telnet

open Feed Runs

/-! ### The subnegotiations of a byte stream -/

/-- The payload collected after a byte, as `parseByte` collects it. -/
def nextPayload (p : ParseState) (payload : List UInt8) (byte : UInt8) : List UInt8 :=
  match p with
  | .subnegotiationOption => []
  | .subnegotiationData _ => if byte = Command.iac then payload else payload ++ [byte]
  | .subnegotiationIac _ =>
    if byte = Command.se then [] else if byte = Command.iac then payload ++ [byte] else payload
  | _ => payload

/-- The subnegotiation that a byte completes. -/
def completedPayload (p : ParseState) (payload : List UInt8) (byte : UInt8) :
    List (UInt8 × List UInt8) :=
  match p with
  | .subnegotiationIac o => if byte = Command.se then [(o, payload)] else []
  | _ => []

/-- The subnegotiations of a stream read from a parser state. -/
def payloadsFrom : ParseState → List UInt8 → List UInt8 → List (UInt8 × List UInt8)
  | _, _, [] => []
  | p, payload, byte :: bytes =>
    completedPayload p payload byte ++
      payloadsFrom (nextParse p byte) (nextPayload p payload byte) bytes

/-- The subnegotiations of a stream that starts between commands. -/
def subnegotiations (bytes : List UInt8) : List (UInt8 × List UInt8) := payloadsFrom .data [] bytes

/-- The parser collects a payload. -/
def Collects : ParseState → Prop
  | .subnegotiationData _ | .subnegotiationIac _ => True
  | _ => False

/-- What is left in the buffer does not matter outside a subnegotiation. -/
theorem payloadsFrom_congr {p : ParseState} (hp : ¬ Collects p) (payload payload' bytes : List UInt8) :
    payloadsFrom p payload bytes = payloadsFrom p payload' bytes := by
  induction bytes generalizing p with
  | nil => rfl
  | cons b bs ih =>
      cases p with
      | data =>
          have hnext : ¬ Collects (nextParse .data b) := by
            simp only [nextParse]
            split_ifs <;> exact id
          simp only [payloadsFrom, completedPayload, nextPayload, ih hnext]
      | iac =>
          have hnext : ¬ Collects (nextParse .iac b) := by
            simp only [nextParse]
            split_ifs <;> exact id
          simp only [payloadsFrom, completedPayload, nextPayload, ih hnext]
      | option verb =>
          have hnext : ¬ Collects (nextParse (.option verb) b) := id
          simp only [payloadsFrom, completedPayload, nextPayload, ih hnext]
      | subnegotiationOption => rfl
      | subnegotiationData o => exact absurd trivial hp
      | subnegotiationIac o => exact absurd trivial hp

theorem payloadsFrom_append (as bs : List UInt8) : ∀ (p : ParseState) (payload : List UInt8),
    ∃ rest, payloadsFrom p payload (as ++ bs) =
      payloadsFrom p payload as ++ payloadsFrom (endParse p as) rest bs := by
  induction as with
  | nil => exact fun p payload => ⟨payload, rfl⟩
  | cons a as ih =>
      intro p payload
      obtain ⟨rest, hrest⟩ := ih (nextParse p a) (nextPayload p payload a)
      refine ⟨rest, ?_⟩
      simp only [List.cons_append, payloadsFrom, hrest, List.append_assoc]
      rfl

theorem subnegotiations_append {as : List UInt8} (ha : Closed as) (bs : List UInt8) :
    subnegotiations (as ++ bs) = subnegotiations as ++ subnegotiations bs := by
  obtain ⟨rest, h⟩ := payloadsFrom_append as bs .data []
  rw [subnegotiations, h, ha, payloadsFrom_congr id rest []]
  rfl

theorem subnegotiations_appendCommand {verb : UInt8} (hv : isOptionCommand verb = true) (o : UInt8) :
    subnegotiations (appendCommand verb o) = [] := by
  have hverb : verb ≠ Command.iac := by
    rintro rfl
    exact absurd hv (by decide)
  simp [subnegotiations, appendCommand, payloadsFrom, completedPayload, nextParse, hv, hverb]

/-- An escaped payload is collected as it was. -/
theorem payloadsFrom_escapeIac (o : UInt8) (payload bs : List UInt8) : ∀ before : List UInt8,
    payloadsFrom (.subnegotiationData o) before (escapeIac payload ++ bs) =
      payloadsFrom (.subnegotiationData o) (before ++ payload) bs := by
  induction payload with
  | nil => intro before; simp [escapeIac]
  | cons b payload ih =>
      intro before
      have hb : escapeIac (b :: payload) =
          (if b = Command.iac then [b, Command.iac] else [b]) ++ escapeIac payload := rfl
      rw [hb]
      by_cases hiac : b = Command.iac
      · have hse : Command.iac ≠ Command.se := by decide
        subst hiac
        simp [payloadsFrom, completedPayload, nextParse, nextPayload, hse, ih]
      · simp [payloadsFrom, completedPayload, nextParse, nextPayload, hiac, ih]

theorem subnegotiations_appendSubnegotiation (o : UInt8) (payload : List UInt8) :
    subnegotiations (appendSubnegotiation o payload) = [(o, payload)] := by
  have hopen : subnegotiations (appendSubnegotiation o payload) =
      payloadsFrom (.subnegotiationData o) [] (escapeIac payload ++ [Command.iac, Command.se]) := by
    simp only [subnegotiations, appendSubnegotiation, List.append_assoc]
    rfl
  rw [hopen, payloadsFrom_escapeIac]
  simp [payloadsFrom, completedPayload, nextParse, nextPayload]

/-! ### Window sizes on the wire -/

/-- The payloads of the NAWS subnegotiations of a stream. -/
def nawsPayloads (bytes : List UInt8) : List (List UInt8) :=
  (subnegotiations bytes).filterMap fun x => if x.1 = Opt.naws then some x.2 else none

/-- The columns and the rows that a NAWS payload names. -/
def decodeWindow : List UInt8 → Option (ℕ × ℕ)
  | [c₁, c₀, r₁, r₀] => some (256 * c₁.toNat + c₀.toNat, 256 * r₁.toNat + r₀.toNat)
  | _ => none

/-- The size that the last NAWS subnegotiation of a stream names. -/
def lastWindow (bytes : List UInt8) : Option (ℕ × ℕ) :=
  (nawsPayloads bytes).getLast?.bind decodeWindow

def WindowSize.payload (size : WindowSize) : List UInt8 :=
  TelnetCodec.beBytes16 size.columns ++ TelnetCodec.beBytes16 size.rows

theorem decodeWindow_payload (size : WindowSize) :
    decodeWindow size.payload = some (size.columns, size.rows) := by
  have hpair : ∀ n ≤ maxWindowDimension,
      256 * (UInt8.ofNat (n / 256)).toNat + (UInt8.ofNat n).toNat = n := by
    intro n hn
    have hmax : maxWindowDimension < 65536 := by decide
    simp only [UInt8.toNat_ofNat']
    omega
  simp only [WindowSize.payload, TelnetCodec.beBytes16, List.cons_append, List.nil_append,
    decodeWindow, hpair _ size.columns_le, hpair _ size.rows_le]

theorem nawsPayloads_append {as : List UInt8} (ha : Closed as) (bs : List UInt8) :
    nawsPayloads (as ++ bs) = nawsPayloads as ++ nawsPayloads bs := by
  rw [nawsPayloads, subnegotiations_append ha, List.filterMap_append]
  rfl

theorem nawsPayloads_command {verb : UInt8} (hv : isOptionCommand verb = true) (o : UInt8)
    (b : Bool) : nawsPayloads (if b then appendCommand verb o else []) = [] := by
  cases b with
  | true => simp [nawsPayloads, subnegotiations_appendCommand hv]
  | false => rfl

theorem nawsPayloads_appendSubnegotiation (o : UInt8) (payload : List UInt8) :
    nawsPayloads (appendSubnegotiation o payload) = if o = Opt.naws then [payload] else [] := by
  rw [nawsPayloads, subnegotiations_appendSubnegotiation]
  split_ifs with ho <;> simp [ho]

namespace TelnetCodec

variable {c c' : TelnetCodec} {r : DecodeResult}

/-! ### The option tables -/

/-- The echo flag is that of the table, and the tables enable supported options only. -/
structure Tabled (c : TelnetCodec) : Prop where
  localEcho : c.localEcho = (c.localOptions Opt.echo).enabled
  supportsLocal : ∀ o, (c.localOptions o).enabled = true → supportsLocal o = true
  supportsRemote : ∀ o, (c.remoteOptions o).enabled = true → supportsRemote o = true

theorem supportsLocal_update {o : UInt8} {st : OptionState} (h : c.Tabled)
    (ho : st.enabled = true → Telnet.supportsLocal o = true) (o' : UInt8)
    (he : (Function.update c.localOptions o st o').enabled = true) :
    Telnet.supportsLocal o' = true := by
  by_cases h' : o' = o
  · subst h'
    rw [Function.update_self] at he
    exact ho he
  · rw [Function.update_of_ne h'] at he
    exact h.supportsLocal o' he

theorem supportsRemote_update {o : UInt8} {st : OptionState} (h : c.Tabled)
    (ho : st.enabled = true → Telnet.supportsRemote o = true) (o' : UInt8)
    (he : (Function.update c.remoteOptions o st o').enabled = true) :
    Telnet.supportsRemote o' = true := by
  by_cases h' : o' = o
  · subst h'
    rw [Function.update_self] at he
    exact ho he
  · rw [Function.update_of_ne h'] at he
    exact h.supportsRemote o' he

@[simp] theorem setLocalEcho_localEcho (b : Bool) : (c.setLocalEcho b).1.localEcho = b := by
  unfold setLocalEcho
  split
  · rfl
  · rename_i h
    simpa using h

@[simp] theorem setRemoteEcho_localEcho (b : Bool) :
    (c.setRemoteEcho b).1.localEcho = c.localEcho := by
  unfold setRemoteEcho; split <;> rfl

theorem Tabled.setRemote (h : c.Tabled) {o : UInt8} {st : OptionState}
    (ho : st.enabled = true → Telnet.supportsRemote o = true) : (c.setRemote o st).Tabled :=
  ⟨h.localEcho, h.supportsLocal, supportsRemote_update h ho⟩

theorem Tabled.setRemoteEcho (h : c.Tabled) (b : Bool) : (c.setRemoteEcho b).1.Tabled :=
  ⟨by simpa using h.localEcho, by simpa using h.supportsLocal, by simpa using h.supportsRemote⟩

/-- An option other than ECHO. -/
theorem Tabled.setLocal (h : c.Tabled) {o : UInt8} {st : OptionState}
    (ho : st.enabled = true → Telnet.supportsLocal o = true)
    (hecho : o = Opt.echo → st.enabled = (c.localOptions o).enabled) : (c.setLocal o st).Tabled := by
  refine ⟨?_, supportsLocal_update h ho, h.supportsRemote⟩
  by_cases he : o = Opt.echo
  · subst he
    simp [TelnetCodec.setLocal, hecho rfl, h.localEcho]
  · simp [TelnetCodec.setLocal, Function.update_of_ne (Ne.symm he), h.localEcho]

/-- ECHO and its flag together. -/
theorem Tabled.setEcho (h : c.Tabled) (st : OptionState) :
    ((c.setLocal Opt.echo st).setLocalEcho st.enabled).1.Tabled := by
  refine ⟨by simp [TelnetCodec.setLocal], ?_, ?_⟩
  · rw [setLocalEcho_localOptions]
    exact supportsLocal_update h fun _ => rfl
  · rw [setLocalEcho_remoteOptions]
    exact h.supportsRemote

theorem Tabled.revokeLocalEcho (h : c.Tabled) : c.revokeLocalEcho.1.Tabled := by
  unfold TelnetCodec.revokeLocalEcho
  split
  · exact h.setEcho ⟨false, false, true⟩
  · exact h

theorem Tabled.handleWill (h : c.Tabled) (o : UInt8) : (c.handleWill o).1.Tabled := by
  unfold TelnetCodec.handleWill
  split
  · exact h.setRemote (by simp)
  · rename_i ho
    have hset : (c.setRemote o ⟨true, false, false⟩).Tabled := h.setRemote fun _ => by simpa using ho
    by_cases he : o = Opt.echo
    · simp only [he, if_true] at hset ⊢
      exact hset.revokeLocalEcho.setRemoteEcho true
    · simp only [he, if_false]
      exact hset

theorem Tabled.handleWont (h : c.Tabled) (o : UInt8) : (c.handleWont o).1.Tabled := by
  have hset : (c.setRemote o ⟨false, false, false⟩).Tabled := h.setRemote (by simp)
  unfold TelnetCodec.handleWont
  by_cases he : o = Opt.echo
  · simp only [he, if_true] at hset ⊢
    exact hset.setRemoteEcho false
  · simp only [he, if_false]
    exact hset

theorem Tabled.handleDo (h : c.Tabled) (o : UInt8) : (c.handleDo o).1.Tabled := by
  unfold TelnetCodec.handleDo
  split
  · rename_i ho
    refine h.setLocal (by simp) fun he => ?_
    subst he
    exact absurd ho (by decide)
  · rename_i ho
    dsimp only
    split
    · rename_i he
      obtain ⟨rfl, -⟩ := he
      exact h.setEcho ⟨true, false, false⟩
    · rename_i he
      refine h.setLocal (fun _ => by simpa using ho) fun hecho => ?_
      simpa [hecho] using he

theorem Tabled.handleDont (h : c.Tabled) (o : UInt8) : (c.handleDont o).1.Tabled := by
  unfold TelnetCodec.handleDont
  dsimp only
  split
  · rename_i he
    obtain ⟨rfl, -⟩ := he
    exact h.setEcho ⟨false, false, false⟩
  · rename_i he
    refine h.setLocal (by simp) fun hecho => ?_
    simpa [hecho] using he

theorem Tabled.handleOption (h : c.Tabled) (verb o : UInt8) : (c.handleOption verb o).1.Tabled := by
  unfold TelnetCodec.handleOption
  split_ifs
  · exact h.handleWill o
  · exact h.handleWont o
  · exact h.handleDo o
  · exact h.handleDont o
  · exact h

/-! ### What is announced -/

/-- The window size is announced where the option becomes enabled, and nowhere else. -/
structure Announces (c c' : TelnetCodec) (outbound : List UInt8) : Prop where
  closed : Closed outbound
  naws : nawsPayloads outbound =
    if (c'.localOptions Opt.naws).enabled && !(c.localOptions Opt.naws).enabled then
      [c.config.windowSize.payload]
    else []

theorem Announces.silent {outbound : List UInt8} (hclosed : Closed outbound)
    (hnone : nawsPayloads outbound = [])
    (hopt : (c'.localOptions Opt.naws).enabled = true → (c.localOptions Opt.naws).enabled = true) :
    Announces c c' outbound := by
  refine ⟨hclosed, ?_⟩
  rw [hnone]
  cases h' : (c'.localOptions Opt.naws).enabled with
  | false => rfl
  | true => simp [hopt h']

theorem appendNawsIfEnabled_of_enabled (ha : c.active = true)
    (he : (c.localOptions Opt.naws).enabled = true) :
    nawsPayloads c.appendNawsIfEnabled = [c.config.windowSize.payload] := by
  rw [appendNawsIfEnabled, ha, he, if_neg (by decide), nawsPayloads_appendSubnegotiation]
  rfl

theorem revokeLocalEcho_localOptions_naws :
    c.revokeLocalEcho.1.localOptions Opt.naws = c.localOptions Opt.naws := by
  unfold revokeLocalEcho
  split
  · simp [setLocal, Function.update_of_ne (show Opt.naws ≠ Opt.echo by decide)]
  · rfl

theorem revokeLocalEcho_nawsPayloads : nawsPayloads c.revokeLocalEcho.2.outbound = [] := by
  unfold revokeLocalEcho
  split
  · exact nawsPayloads_command rfl Opt.echo true
  · rfl

theorem handleWill_announces (o : UInt8) :
    Announces c (c.handleWill o).1 (c.handleWill o).2.outbound := by
  cases hs : Telnet.supportsRemote o with
  | false =>
      refine .silent (handleWill_rejected hs).1 ?_ ?_
      · unfold handleWill
        rw [hs]
        exact nawsPayloads_command rfl o _
      · unfold handleWill
        rw [hs]
        exact id
  | true =>
      refine .silent (handleWill_outbound hs).1 ?_ ?_
      · unfold handleWill
        rw [hs]
        by_cases he : o = Opt.echo
        · simp only [he, if_true, Bool.not_true, Bool.false_eq_true, if_false,
            DecodeResult.add_outbound, DecodeResult.reply]
          rw [nawsPayloads_append revokeLocalEcho_outbound.1, revokeLocalEcho_nawsPayloads,
            nawsPayloads_command rfl]
          rfl
        · simp only [he, if_false, Bool.not_true, Bool.false_eq_true, DecodeResult.add_outbound,
            DecodeResult.reply, DecodeResult.zero_outbound, List.nil_append]
          exact nawsPayloads_command rfl o _
      · unfold handleWill
        rw [hs]
        by_cases he : o = Opt.echo
        · simp only [he, if_true, Bool.not_true, Bool.false_eq_true, if_false,
            setRemoteEcho_localOptions, revokeLocalEcho_localOptions_naws]
          exact id
        · simp only [he, if_false, Bool.not_true, Bool.false_eq_true]
          exact id

theorem handleWont_announces (o : UInt8) :
    Announces c (c.handleWont o).1 (c.handleWont o).2.outbound := by
  refine .silent (handleWont_outbound o).1 (nawsPayloads_command rfl o _) ?_
  unfold handleWont
  dsimp only
  split
  · rw [setRemoteEcho_localOptions]
    exact id
  · exact id

theorem handleDont_announces (o : UInt8) :
    Announces c (c.handleDont o).1 (c.handleDont o).2.outbound := by
  refine .silent (handleDont_outbound o).1 (nawsPayloads_command rfl o _) fun he => ?_
  by_cases ho : Opt.naws = o
  · subst ho
    have hopt : ((c.handleDont Opt.naws).1.localOptions Opt.naws).enabled = false := by
      unfold handleDont
      dsimp only
      split <;> simp [setLocal]
    rw [hopt] at he
    cases he
  · have hopt : (c.handleDont o).1.localOptions Opt.naws = c.localOptions Opt.naws := by
      unfold handleDont
      dsimp only
      split <;> simp [setLocal, Function.update_of_ne ho]
    rwa [hopt] at he

theorem handleDo_announces (ha : c.active = true) (o : UInt8) :
    Announces c (c.handleDo o).1 (c.handleDo o).2.outbound := by
  refine ⟨(handleDo_outbound o).1, ?_⟩
  by_cases ho : o = Opt.naws
  · subst ho
    have hopt : ((c.handleDo Opt.naws).1.localOptions Opt.naws).enabled = true := by
      unfold handleDo
      rw [if_neg (by decide)]
      dsimp only
      split <;> simp [setLocal]
    have hout : (c.handleDo Opt.naws).2.outbound =
        (if !(c.localOptions Opt.naws).pendingEnable && !(c.localOptions Opt.naws).enabled then
          appendCommand Command.will Opt.naws else []) ++
        if !(c.localOptions Opt.naws).enabled then
          (c.setLocal Opt.naws ⟨true, false, false⟩).appendNawsIfEnabled else [] := by
      unfold handleDo
      rw [if_neg (by decide)]
      dsimp only [DecodeResult.reply]
      rw [if_neg (c := Opt.naws = Opt.echo ∧ _) (fun h => absurd h.1 (by decide))]
      simp
    have hclosed := (charge_if_appendCommand Command.will rfl Opt.naws
      (!(c.localOptions Opt.naws).pendingEnable && !(c.localOptions Opt.naws).enabled)).1
    have hsize := appendNawsIfEnabled_of_enabled (c := c.setLocal Opt.naws ⟨true, false, false⟩) ha
      (by simp [setLocal])
    rw [hopt, hout, nawsPayloads_append hclosed, nawsPayloads_command rfl, List.nil_append,
      Bool.true_and]
    cases (c.localOptions Opt.naws).enabled with
    | true => rfl
    | false => exact hsize
  · refine (Announces.silent (handleDo_outbound o).1 ?_ ?_).naws
    · unfold handleDo
      split
      · exact nawsPayloads_command rfl o _
      · simp only [ho, false_and, if_false, List.append_nil, DecodeResult.reply]
        exact nawsPayloads_command rfl o _
    · have hne : Opt.naws ≠ o := Ne.symm ho
      have hopt : (c.handleDo o).1.localOptions Opt.naws = c.localOptions Opt.naws := by
        unfold handleDo
        split
        · simp [setLocal, Function.update_of_ne hne]
        · dsimp only
          split <;> simp [setLocal, Function.update_of_ne hne]
      rw [hopt]
      exact id

theorem handleOption_announces (ha : c.active = true) (verb o : UInt8) :
    Announces c (c.handleOption verb o).1 (c.handleOption verb o).2.outbound := by
  unfold handleOption
  split_ifs
  · exact handleWill_announces o
  · exact handleWont_announces o
  · exact handleDo_announces ha o
  · exact handleDont_announces o
  · exact .silent closed_nil rfl id

/-! ### The two ECHO options -/

/-- One side echoes at most. -/
def EchoExclusive (c : TelnetCodec) : Prop :=
  ¬ ((c.localOptions Opt.echo).enabled = true ∧ (c.remoteOptions Opt.echo).enabled = true)

theorem revokeLocalEcho_disabled : (c.revokeLocalEcho.1.localOptions Opt.echo).enabled = false := by
  unfold revokeLocalEcho
  split
  · simp [setLocal]
  · rename_i h
    simpa using h

theorem EchoExclusive.handleWill (h : c.EchoExclusive) (o : UInt8) :
    (c.handleWill o).1.EchoExclusive := by
  unfold EchoExclusive at *
  unfold TelnetCodec.handleWill
  by_cases he : o = Opt.echo
  · subst he
    rw [if_neg (by decide)]
    simp only [if_true, setRemoteEcho_localOptions, revokeLocalEcho_disabled]
    simp
  · have hne : Opt.echo ≠ o := Ne.symm he
    split
    · simpa [setRemote, Function.update_of_ne hne] using h
    · simpa [he, setRemote, Function.update_of_ne hne] using h

theorem EchoExclusive.handleWont (h : c.EchoExclusive) (o : UInt8) :
    (c.handleWont o).1.EchoExclusive := by
  unfold EchoExclusive
  have hlocal : (c.handleWont o).1.localOptions = c.localOptions := by
    unfold TelnetCodec.handleWont
    dsimp only
    split
    · exact setRemoteEcho_localOptions false
    · rfl
  rw [hlocal, handleWont_remoteOptions]
  by_cases he : o = Opt.echo
  · simp [he]
  · rw [Function.update_of_ne (Ne.symm he)]
    exact h

theorem EchoExclusive.handleDont (h : c.EchoExclusive) (o : UInt8) :
    (c.handleDont o).1.EchoExclusive := by
  unfold EchoExclusive
  rw [handleDont_remoteOptions]
  have hlocal : (c.handleDont o).1.localOptions = Function.update c.localOptions o
      ⟨false, false, false⟩ := by
    unfold TelnetCodec.handleDont
    dsimp only
    split
    · exact setLocalEcho_localOptions false
    · rfl
  rw [hlocal]
  by_cases he : o = Opt.echo
  · simp [he]
  · rw [Function.update_of_ne (Ne.symm he)]
    exact h

/-- DO ECHO does not look at the remote option. -/
theorem EchoExclusive.handleDo (h : c.EchoExclusive) {o : UInt8}
    (hclash : o = Opt.echo → (c.remoteOptions Opt.echo).enabled = false) :
    (c.handleDo o).1.EchoExclusive := by
  unfold EchoExclusive
  rw [handleDo_remoteOptions]
  by_cases he : o = Opt.echo
  · simp [hclash he]
  · have hne : Opt.echo ≠ o := Ne.symm he
    have hlocal : (c.handleDo o).1.localOptions Opt.echo = c.localOptions Opt.echo := by
      unfold TelnetCodec.handleDo
      split
      · simp [setLocal, Function.update_of_ne hne]
      · simp [he, setLocal, Function.update_of_ne hne]
    rw [hlocal]
    exact h

/-! ### A received byte -/

/-- The byte completes a DO ECHO while the peer echoes. -/
def EchoClash (c : TelnetCodec) (byte : UInt8) : Prop :=
  c.parseState = .option Command.do ∧ byte = Opt.echo ∧ (c.remoteOptions Opt.echo).enabled = true

instance (c : TelnetCodec) (byte : UInt8) : Decidable (c.EchoClash byte) :=
  inferInstanceAs (Decidable (_ ∧ _ ∧ _))

theorem EchoExclusive.handleOption (h : c.EchoExclusive) {verb byte : UInt8}
    (hs : c.parseState = .option verb) (hclash : ¬ c.EchoClash byte) :
    (c.handleOption verb byte).1.EchoExclusive := by
  unfold TelnetCodec.handleOption
  split_ifs with h₁ h₂ h₃ h₄
  · exact h.handleWill byte
  · exact h.handleWont byte
  · refine h.handleDo fun hb => ?_
    by_contra he
    exact hclash ⟨by rw [hs, h₃], hb, by simpa using he⟩
  · exact h.handleDont byte
  · exact h

/-- What the parser leaves alone outside the option commands. -/
structure SameOptions (c c' : TelnetCodec) : Prop where
  config : c'.config = c.config
  active : c'.active = c.active
  localOptions : c'.localOptions = c.localOptions
  remoteOptions : c'.remoteOptions = c.remoteOptions
  localEcho : c'.localEcho = c.localEcho

theorem SameOptions.refl (c : TelnetCodec) : SameOptions c c := ⟨rfl, rfl, rfl, rfl, rfl⟩

theorem SameOptions.trans {c'' : TelnetCodec} (h : SameOptions c c') (h' : SameOptions c' c'') :
    SameOptions c c'' :=
  ⟨h'.config.trans h.config, h'.active.trans h.active, h'.localOptions.trans h.localOptions,
    h'.remoteOptions.trans h.remoteOptions, h'.localEcho.trans h.localEcho⟩

/-- The length of the payload collected so far. -/
def collected (c : TelnetCodec) : ℕ :=
  match c.parseState with
  | .subnegotiationData _ | .subnegotiationIac _ => c.subnegotiation.length
  | _ => 0

/-- **What a byte does**: it completes an option command, or it leaves the options alone and adds
no more than itself to a payload. -/
theorem parseByte_cases {byte : UInt8} (h : c.parseByte byte = (c', .ok r)) :
    (∃ verb, c.parseState = .option verb ∧ c' = (c.handleOption verb byte).1.setParse .data ∧
      r = (c.handleOption verb byte).2) ∨
    SameOptions c c' ∧ Closed r.outbound ∧ nawsPayloads r.outbound = [] ∧
      c'.collected ≤ c.collected + 1 := by
  unfold parseByte at h
  cases hs : c.parseState with
  | data =>
      simp only [hs] at h
      right
      split_ifs at h with hb <;>
        (obtain ⟨rfl, hr⟩ := Prod.mk.inj h; obtain rfl := Except.ok.inj hr)
      · exact ⟨⟨rfl, rfl, rfl, rfl, rfl⟩, closed_nil, rfl, Nat.zero_le _⟩
      · exact ⟨.refl c, closed_nil, rfl, Nat.le_succ _⟩
  | iac =>
      simp only [hs] at h
      right
      split_ifs at h <;>
        (obtain ⟨rfl, hr⟩ := Prod.mk.inj h; obtain rfl := Except.ok.inj hr) <;>
        exact ⟨⟨rfl, rfl, rfl, rfl, rfl⟩, closed_nil, rfl, Nat.zero_le _⟩
  | option verb =>
      simp only [hs] at h
      obtain ⟨rfl, hr⟩ := Prod.mk.inj h
      obtain rfl := Except.ok.inj hr
      exact .inl ⟨verb, rfl, rfl, rfl⟩
  | subnegotiationOption =>
      simp only [hs] at h
      obtain ⟨rfl, hr⟩ := Prod.mk.inj h
      obtain rfl := Except.ok.inj hr
      exact .inr ⟨⟨rfl, rfl, rfl, rfl, rfl⟩, closed_nil, rfl, Nat.zero_le _⟩
  | subnegotiationData o =>
      simp only [hs] at h
      right
      split_ifs at h with hb
      · obtain ⟨rfl, hr⟩ := Prod.mk.inj h
        obtain rfl := Except.ok.inj hr
        exact ⟨⟨rfl, rfl, rfl, rfl, rfl⟩, closed_nil, rfl, by simp [collected, hs, setParse]⟩
      · rcases hp : c.pushSubnegotiation byte with ⟨c₁, e | u⟩ <;> simp only [hp] at h
        · simp at h
        · obtain ⟨rfl, hr⟩ := Prod.mk.inj h
          obtain rfl := Except.ok.inj hr
          obtain rfl := pushSubnegotiation_ok hp
          exact ⟨⟨rfl, rfl, rfl, rfl, rfl⟩, closed_nil, rfl, by simp [collected, hs]⟩
  | subnegotiationIac o =>
      simp only [hs] at h
      right
      split_ifs at h with hse hb
      · obtain ⟨rfl, hr⟩ := Prod.mk.inj h
        obtain rfl := Except.ok.inj hr
        refine ⟨⟨rfl, rfl, rfl, rfl, rfl⟩, (handleSubnegotiation_outbound _ _).1, ?_,
          Nat.zero_le _⟩
        simp only [DecodeResult.reply, handleSubnegotiation]
        split
        · rw [nawsPayloads_appendSubnegotiation]
          rfl
        · rfl
      · rcases hp : c.pushSubnegotiation Command.iac with ⟨c₁, e | u⟩ <;> simp only [hp] at h
        · simp at h
        · obtain ⟨rfl, hr⟩ := Prod.mk.inj h
          obtain rfl := Except.ok.inj hr
          obtain rfl := pushSubnegotiation_ok hp
          exact ⟨⟨rfl, rfl, rfl, rfl, rfl⟩, closed_nil, rfl, by simp [collected, hs, setParse]⟩
      · obtain ⟨rfl, hr⟩ := Prod.mk.inj h
        obtain rfl := Except.ok.inj hr
        exact ⟨⟨rfl, rfl, rfl, rfl, rfl⟩, closed_nil, rfl, by simp [collected, hs, setParse]⟩

/-- A payload overflows only when the buffer is full. -/
theorem parseByte_error {byte : UInt8} {e : CodecError} (h : c.parseByte byte = (c', .error e)) :
    SameOptions c c' ∧ c.collected = maxSubnegotiationBytes := by
  have hpush : ∀ {b : UInt8} {c₁ : TelnetCodec} {e : CodecError},
      c.pushSubnegotiation b = (c₁, .error e) →
        SameOptions c c₁ ∧ c.subnegotiation.length = maxSubnegotiationBytes := by
    intro b c₁ e hp
    unfold pushSubnegotiation at hp
    split at hp
    · obtain ⟨rfl, -⟩ := Prod.mk.inj hp
      exact ⟨⟨rfl, rfl, rfl, rfl, rfl⟩, ‹_›⟩
    · cases (Prod.mk.inj hp).2
  unfold parseByte at h
  cases hs : c.parseState with
  | data => simp only [hs] at h; split_ifs at h <;> cases (Prod.mk.inj h).2
  | iac => simp only [hs] at h; split_ifs at h <;> cases (Prod.mk.inj h).2
  | option verb => simp only [hs] at h; cases (Prod.mk.inj h).2
  | subnegotiationOption => simp only [hs] at h; cases (Prod.mk.inj h).2
  | subnegotiationData o =>
      simp only [hs] at h
      split_ifs at h with hb
      · cases (Prod.mk.inj h).2
      · rcases hp : c.pushSubnegotiation byte with ⟨c₁, e | u⟩ <;> simp only [hp] at h
        · obtain ⟨rfl, -⟩ := Prod.mk.inj h
          simpa [collected, hs] using hpush hp
        · cases (Prod.mk.inj h).2
  | subnegotiationIac o =>
      simp only [hs] at h
      split_ifs at h with hse hb
      · cases (Prod.mk.inj h).2
      · rcases hp : c.pushSubnegotiation Command.iac with ⟨c₁, e | u⟩ <;> simp only [hp] at h
        · obtain ⟨rfl, -⟩ := Prod.mk.inj h
          simpa [collected, hs] using hpush hp
        · cases (Prod.mk.inj h).2
      · cases (Prod.mk.inj h).2

/-! ### A received frame -/

/-- A frame too short to fill the buffer does not overflow it. -/
theorem feed_ne_error {bytes : List UInt8} {e : CodecError}
    (hlen : c.collected + bytes.length ≤ maxSubnegotiationBytes)
    (h : feed parseByte c bytes = (c', .error e)) : False := by
  induction bytes generalizing c with
  | nil => cases (Prod.mk.inj h).2
  | cons b bs ih =>
      rw [List.length_cons] at hlen
      rcases hb : c.parseByte b with ⟨c₁, e₁ | r₁⟩
      · have := (parseByte_error hb).2
        omega
      · have hrest : feed parseByte c₁ bs = (c', .error e) := by
          rw [feed, hb] at h
          unfold andThen at h
          rcases h₁ : feed parseByte c₁ bs with ⟨c₂, e₂ | r₂⟩
          · simpa [h₁] using h
          · simp [h₁] at h
        refine ih ?_ hrest
        rcases parseByte_cases hb with ⟨verb, -, rfl, -⟩ | ⟨-, -, -, hle⟩
        · have hzero : ((c.handleOption verb b).1.setParse .data).collected = 0 := rfl
          omega
        · omega

/-- **A frame that fails has handled no option**: it only went on with a subnegotiation that earlier
frames began. -/
theorem sameOptions_of_feed_error {bytes : List UInt8} {e : CodecError}
    (hlen : bytes.length ≤ maxSubnegotiationBytes)
    (h : feed parseByte c bytes = (c', .error e)) : SameOptions c c' := by
  induction bytes generalizing c with
  | nil => cases (Prod.mk.inj h).2
  | cons b bs ih =>
      rw [List.length_cons] at hlen
      rcases hb : c.parseByte b with ⟨c₁, e₁ | r₁⟩
      · rw [feed, hb, andThen_error] at h
        obtain ⟨rfl, -⟩ := Prod.mk.inj h
        exact (parseByte_error hb).1
      · have hrest : feed parseByte c₁ bs = (c', .error e) := by
          rw [feed, hb] at h
          unfold andThen at h
          rcases h₁ : feed parseByte c₁ bs with ⟨c₂, e₂ | r₂⟩
          · simpa [h₁] using h
          · simp [h₁] at h
        rcases parseByte_cases hb with ⟨verb, -, rfl, -⟩ | ⟨hsame, -, -, -⟩
        · refine (feed_ne_error ?_ hrest).elim
          have hzero : ((c.handleOption verb b).1.setParse .data).collected = 0 := rfl
          omega
        · exact hsame.trans (ih (by omega) hrest)

theorem sameOptions_of_receive_error (hc : c.Synced) {input : List UInt8} {e : CodecError}
    (h : c.receive input = (c', .error e)) :
    SameOptions c c' ∧ (c.active = false → c' = c) := by
  unfold receive at h
  split at h
  · obtain ⟨rfl, -⟩ := Prod.mk.inj h
    exact ⟨.refl c, fun _ => rfl⟩
  · obtain ⟨rfl, -⟩ := Prod.mk.inj h
    exact ⟨.refl c, fun _ => rfl⟩
  · rename_i hsize
    have hlen : input.length ≤ maxSubnegotiationBytes := by
      unfold checkInputSize at hsize
      split_ifs at hsize with hle
      exact Nat.not_lt.mp hle
    cases ha : c.active with
    | true =>
        simp only [ha, Bool.not_true, Bool.false_eq_true, if_false] at h
        exact ⟨sameOptions_of_feed_error hlen h, fun hf => absurd hf (by decide)⟩
    | false =>
        simp only [ha, Bool.not_false, if_true] at h
        split at h
        · cases (Prod.mk.inj h).2
        · rename_i iacAt _
          exfalso
          unfold andThen at h
          simp only at h
          rcases h₁ : feed parseByte c.activate.1 (input.drop iacAt) with ⟨c₂, e₂ | r₂⟩
          · refine feed_ne_error ?_ h₁
            have hzero : c.activate.1.collected = 0 := by
              have hp : c.activate.1.parseState = .data := hc ha
              rw [collected, hp]
            rw [hzero, List.length_drop]
            omega
          · simp [h₁] at h

end TelnetCodec

/-! ### Sessions -/

/-- A codec, and what it has written since it was activated. -/
structure Session where
  codec : TelnetCodec
  written : List UInt8

namespace Session

inductive Input where
  | receive (bytes : List UInt8)
  | resize (columns rows : ℕ)
  | reset

/-- A failed call writes nothing. -/
def after (s : Session) : Input → Session
  | .receive bytes =>
    match s.codec.receive bytes with
    | (c, .ok r) => ⟨c, s.written ++ r.outbound⟩
    | (c, .error _) => ⟨c, s.written⟩
  | .resize columns rows =>
    match s.codec.resize columns rows with
    | (c, .ok bytes) => ⟨c, s.written ++ bytes⟩
    | (c, .error _) => ⟨c, s.written⟩
  | .reset => ⟨s.codec.reset, []⟩

def Step (s : Session) (i : Input) (s' : Session) : Prop := s' = s.after i

def new (config : TelnetConfig) : Session := ⟨.new config, []⟩

/-- The echo flag is that of the option table, only supported options are enabled, and the last
window size written is the current one. -/
structure Consistent (s : Session) : Prop where
  localEcho : s.codec.localEcho = true ↔ (s.codec.localOptions Opt.echo).enabled = true
  supportsLocal : ∀ o, (s.codec.localOptions o).enabled = true → supportsLocal o = true
  supportsRemote : ∀ o, (s.codec.remoteOptions o).enabled = true → supportsRemote o = true
  window : s.codec.active = true → (s.codec.localOptions Opt.naws).enabled = true →
    lastWindow s.written =
      some (s.codec.config.windowSize.columns, s.codec.config.windowSize.rows)

/-- The invariant behind it: a raw codec has written nothing and enabled nothing. -/
structure Sound (c : TelnetCodec) (written : List UInt8) : Prop where
  tabled : c.Tabled
  closed : Closed written
  synced : c.Synced
  raw : c.active = false → written = [] ∧ ∀ o, (c.localOptions o).enabled = false
  window : (c.localOptions Opt.naws).enabled = true →
    (nawsPayloads written).getLast? = some c.config.windowSize.payload

variable {c c' : TelnetCodec} {r : DecodeResult} {written : List UInt8}

theorem Sound.consistent {s : Session} (h : Sound s.codec s.written) : s.Consistent := by
  refine ⟨by rw [h.tabled.localEcho], h.tabled.supportsLocal, h.tabled.supportsRemote,
    fun _ he => ?_⟩
  rw [lastWindow, h.window he]
  exact decodeWindow_payload _

theorem sound_new (config : TelnetConfig) : Sound (.new config) [] := by
  refine ⟨⟨rfl, ?_, ?_⟩, closed_nil, fun _ => rfl, fun _ => ⟨rfl, fun _ => rfl⟩, ?_⟩
  all_goals simp [TelnetCodec.new]

/-- Options that stay the same stay announced. -/
theorem Sound.same (h : Sound c written) (hsame : TelnetCodec.SameOptions c c')
    (hsynced : c'.Synced) : Sound c' written := by
  refine ⟨⟨?_, ?_, ?_⟩, h.closed, hsynced, ?_, ?_⟩
  · rw [hsame.localEcho, hsame.localOptions]
    exact h.tabled.localEcho
  · rw [hsame.localOptions]
    exact h.tabled.supportsLocal
  · rw [hsame.remoteOptions]
    exact h.tabled.supportsRemote
  · rw [hsame.active, hsame.localOptions]
    exact h.raw
  · rw [hsame.localOptions, hsame.config]
    exact h.window

theorem Sound.write (h : Sound c written) {out : List UInt8} (hclosed : Closed out)
    (hnone : nawsPayloads out = []) (ha : c.active = true) : Sound c (written ++ out) := by
  refine ⟨h.tabled, h.closed.append hclosed, h.synced, fun hf => ?_, fun he => ?_⟩
  · rw [ha] at hf
    cases hf
  · rw [nawsPayloads_append h.closed, hnone, List.append_nil]
    exact h.window he

theorem Sound.parseByte (h : Sound c written) (ha : c.active = true) {byte : UInt8}
    (hb : c.parseByte byte = (c', .ok r)) : Sound c' (written ++ r.outbound) := by
  rcases TelnetCodec.parseByte_cases hb with ⟨verb, -, rfl, rfl⟩ | ⟨hsame, hclosed, hnone, -⟩
  · have hsession := TelnetCodec.sameSession_handleOption (c := c) verb byte
    have hactive : (c.handleOption verb byte).1.active = true := hsession.active.trans ha
    obtain ⟨hclosed, hnaws⟩ := TelnetCodec.handleOption_announces ha verb byte
    refine ⟨?_, h.closed.append hclosed, fun _ => rfl, fun hf => ?_, fun he => ?_⟩
    · have ht := h.tabled.handleOption verb byte
      exact ⟨ht.localEcho, ht.supportsLocal, ht.supportsRemote⟩
    · have hf' : (c.handleOption verb byte).1.active = false := hf
      rw [hactive] at hf'
      cases hf'
    · have he' : ((c.handleOption verb byte).1.localOptions Opt.naws).enabled = true := he
      have hconfig : ((c.handleOption verb byte).1.setParse .data).config = c.config :=
        hsession.config
      rw [nawsPayloads_append h.closed, hnaws, he', hconfig]
      cases hwas : (c.localOptions Opt.naws).enabled with
      | true => simpa using h.window hwas
      | false => simp
  · have hactive : c'.active = true := hsame.active.trans ha
    refine (h.same hsame fun hf => ?_).write hclosed hnone hactive
    rw [hactive] at hf
    cases hf

theorem enabled_pending (t : OptionTable) (o o' : UInt8) :
    (Function.update t o { t o with pendingEnable := true } o').enabled = (t o').enabled := by
  by_cases ho : o' = o
  · subst ho
    rw [Function.update_self]
  · rw [Function.update_of_ne ho]

theorem activate_localOptions (o : UInt8) :
    (c.activate.1.localOptions o).enabled = (c.localOptions o).enabled :=
  (enabled_pending _ Opt.naws o).trans (enabled_pending _ Opt.terminalType o)

theorem activate_remoteOptions (o : UInt8) :
    (c.activate.1.remoteOptions o).enabled = (c.remoteOptions o).enabled :=
  enabled_pending _ Opt.suppressGoAhead o

theorem Sound.activate (h : Sound c written) (ha : c.active = false) :
    Sound c.activate.1 (written ++ c.activate.2.outbound) := by
  obtain ⟨rfl, hoff⟩ := h.raw ha
  refine ⟨⟨?_, fun o he => ?_, fun o he => ?_⟩, (TelnetCodec.activate_paid ha).1, ?_, ?_, ?_⟩
  · rw [activate_localOptions]
    exact h.tabled.localEcho
  · rw [activate_localOptions] at he
    exact h.tabled.supportsLocal o he
  · rw [activate_remoteOptions] at he
    exact h.tabled.supportsRemote o he
  · intro hf
    cases hf
  · intro hf
    cases hf
  · intro he
    rw [activate_localOptions, hoff] at he
    cases he

theorem Sound.receiveByte (h : Sound c written) {byte : UInt8}
    (hb : c.receiveByte byte = (c', .ok r)) : Sound c' (written ++ r.outbound) := by
  unfold TelnetCodec.receiveByte at hb
  cases ha : c.active with
  | true =>
      rw [if_pos ha] at hb
      exact h.parseByte ha hb
  | false =>
      simp only [ha, Bool.false_eq_true, if_false] at hb
      split_ifs at hb with hiac
      · obtain ⟨c₁, w₁, w₂, h₁, h₂, rfl⟩ := andThen_eq_ok.mp hb
        obtain ⟨rfl, hw⟩ := Prod.mk.inj h₁
        obtain rfl := Except.ok.inj hw
        rw [DecodeResult.add_outbound, ← List.append_assoc]
        exact (h.activate ha).parseByte rfl h₂
      · obtain ⟨rfl, hr⟩ := Prod.mk.inj hb
        obtain rfl := Except.ok.inj hr
        simpa [DecodeResult.data] using h

theorem Sound.feed {bytes : List UInt8} (h : Sound c written)
    (hb : feed TelnetCodec.receiveByte c bytes = (c', .ok r)) : Sound c' (written ++ r.outbound) := by
  induction bytes generalizing c written r with
  | nil =>
      obtain ⟨rfl, hr⟩ := Prod.mk.inj hb
      obtain rfl := Except.ok.inj hr
      simpa using h
  | cons b bs ih =>
      obtain ⟨c₁, w₁, w₂, h₁, h₂, rfl⟩ := andThen_eq_ok.mp hb
      rw [DecodeResult.add_outbound, ← List.append_assoc]
      exact ih (h.receiveByte h₁) h₂

theorem Sound.resize (h : Sound c written) {columns rows : ℕ} {out : List UInt8}
    (hr : c.resize columns rows = (c', .ok out)) : Sound c' (written ++ out) := by
  unfold TelnetCodec.resize at hr
  split at hr
  · cases (Prod.mk.inj hr).2
  · cases (Prod.mk.inj hr).2
  · rename_i windowSize _ _
    obtain ⟨rfl, hout⟩ := Prod.mk.inj hr
    obtain rfl := Except.ok.inj hout
    have hclosed := (TelnetCodec.appendNawsIfEnabled_outbound
      (c := { c with config := c.config.withWindowSize windowSize })).1
    refine ⟨⟨h.tabled.localEcho, h.tabled.supportsLocal, h.tabled.supportsRemote⟩,
      h.closed.append hclosed, h.synced, fun hf => ?_, fun he => ?_⟩
    · obtain ⟨hw, hoff⟩ := h.raw hf
      refine ⟨?_, hoff⟩
      have hf' : c.active = false := hf
      simp [hw, TelnetCodec.appendNawsIfEnabled, hf']
    · have ha : c.active = true := by
        by_contra hne
        have hoff := (h.raw (by simpa using hne)).2 Opt.naws
        have he' : (c.localOptions Opt.naws).enabled = true := he
        rw [hoff] at he'
        cases he'
      rw [nawsPayloads_append h.closed, TelnetCodec.appendNawsIfEnabled_of_enabled
        (c := { c with config := c.config.withWindowSize windowSize }) ha he]
      simp [TelnetConfig.withWindowSize]

theorem Sound.after {s : Session} (h : Sound s.codec s.written) (i : Input) :
    Sound (s.after i).codec (s.after i).written := by
  cases i with
  | receive bytes =>
      unfold Session.after
      rcases hr : s.codec.receive bytes with ⟨c, e | r⟩
      · simp only [hr]
        obtain ⟨hsame, hraw⟩ := TelnetCodec.sameOptions_of_receive_error h.synced hr
        refine h.same hsame fun hf => ?_
        rw [hsame.active] at hf
        rw [hraw hf]
        exact h.synced hf
      · simp only [hr]
        exact h.feed (TelnetCodec.feed_of_receive hr)
  | resize columns rows =>
      unfold Session.after
      rcases hr : s.codec.resize columns rows with ⟨c, e | out⟩
      · simp only [hr]
        have hc : c = s.codec := by
          unfold TelnetCodec.resize at hr
          split at hr
          · exact (Prod.mk.inj hr).1.symm
          · exact (Prod.mk.inj hr).1.symm
          · cases (Prod.mk.inj hr).2
        rw [hc]
        exact h
      · simp only [hr]
        exact h.resize hr
  | reset => exact sound_new _

theorem sound_of_run {config : TelnetConfig} {inputs : List Input} {s : Session}
    (h : Run Step (new config) inputs s) : Sound s.codec s.written := by
  refine h.invariant (I := fun s => Sound s.codec s.written) (sound_new config) ?_
  rintro s i _ hs rfl
  exact hs.after i

/-! ### Echo in a session -/

/-- No DO ECHO of a frame is handled while the peer echoes. -/
def Unclashing (s : Session) : Input → Prop
  | .receive bytes => Feed.count TelnetCodec.receiveByte TelnetCodec.EchoClash s.codec bytes = 0
  | _ => True

theorem echoExclusive_parseByte (h : c.EchoExclusive) {byte : UInt8}
    (hclash : ¬ c.EchoClash byte) (hb : c.parseByte byte = (c', .ok r)) : c'.EchoExclusive := by
  rcases TelnetCodec.parseByte_cases hb with ⟨verb, hs, rfl, rfl⟩ | ⟨hsame, -, -, -⟩
  · exact h.handleOption hs hclash
  · unfold TelnetCodec.EchoExclusive
    rw [hsame.localOptions, hsame.remoteOptions]
    exact h

theorem echoExclusive_receiveByte (h : c.EchoExclusive) (hc : c.Synced) {byte : UInt8}
    (hclash : ¬ c.EchoClash byte) (hb : c.receiveByte byte = (c', .ok r)) : c'.EchoExclusive := by
  unfold TelnetCodec.receiveByte at hb
  cases ha : c.active with
  | true =>
      rw [if_pos ha] at hb
      exact echoExclusive_parseByte h hclash hb
  | false =>
      simp only [ha, Bool.false_eq_true, if_false] at hb
      split_ifs at hb with hiac
      · obtain ⟨c₁, w₁, w₂, h₁, h₂, rfl⟩ := andThen_eq_ok.mp hb
        obtain ⟨rfl, hw⟩ := Prod.mk.inj h₁
        have hactivated : c.activate.1.EchoExclusive := by
          unfold TelnetCodec.EchoExclusive
          rw [activate_localOptions, activate_remoteOptions]
          exact h
        refine echoExclusive_parseByte hactivated (fun hne => ?_) h₂
        have hdata : c.activate.1.parseState = .data := hc ha
        rw [hne.1] at hdata
        cases hdata
      · obtain ⟨rfl, -⟩ := Prod.mk.inj hb
        exact h

theorem echoExclusive_feed {bytes : List UInt8} (h : c.EchoExclusive) (hc : c.Synced)
    (hcount : Feed.count TelnetCodec.receiveByte TelnetCodec.EchoClash c bytes = 0)
    (hb : feed TelnetCodec.receiveByte c bytes = (c', .ok r)) : c'.EchoExclusive := by
  induction bytes generalizing c r with
  | nil =>
      obtain ⟨rfl, -⟩ := Prod.mk.inj hb
      exact h
  | cons b bs ih =>
      obtain ⟨c₁, w₁, w₂, h₁, h₂, rfl⟩ := andThen_eq_ok.mp hb
      rw [Feed.count, h₁, Nat.add_eq_zero_iff] at hcount
      have hclash : ¬ c.EchoClash b := fun hne => by simp [hne] at hcount
      exact ih (echoExclusive_receiveByte h hc hclash h₁) (TelnetCodec.receiveByte_paid hc h₁).2
        hcount.2 h₂

theorem resize_options (columns rows : ℕ) :
    (c.resize columns rows).1.localOptions = c.localOptions ∧
      (c.resize columns rows).1.remoteOptions = c.remoteOptions := by
  unfold TelnetCodec.resize
  split <;> exact ⟨rfl, rfl⟩

theorem echoExclusive_after {s : Session} (hs : Sound s.codec s.written)
    (h : s.codec.EchoExclusive) {i : Input} (hi : s.Unclashing i) :
    (s.after i).codec.EchoExclusive := by
  cases i with
  | receive bytes =>
      unfold Session.after
      rcases hr : s.codec.receive bytes with ⟨c, e | r⟩
      · obtain ⟨hsame, -⟩ := TelnetCodec.sameOptions_of_receive_error hs.synced hr
        simp only [hr]
        unfold TelnetCodec.EchoExclusive
        rw [hsame.localOptions, hsame.remoteOptions]
        exact h
      · simp only [hr]
        exact echoExclusive_feed h hs.synced hi (TelnetCodec.feed_of_receive hr)
  | resize columns rows =>
      obtain ⟨hlocal, hremote⟩ := resize_options (c := s.codec) columns rows
      have hcodec : (s.after (.resize columns rows)).codec = (s.codec.resize columns rows).1 := by
        unfold Session.after
        rcases hr : s.codec.resize columns rows with ⟨c, e | out⟩ <;> simp only [hr]
      rw [hcodec]
      unfold TelnetCodec.EchoExclusive
      rw [hlocal, hremote]
      exact h
  | reset => exact fun hf => by cases hf.1

/-- The inputs of a run, none of which makes the two sides echo. -/
def UnclashingStep (s : Session) (i : Input) (s' : Session) : Prop := s.Unclashing i ∧ Step s i s'

/-- **The option state is consistent** in every state of a session; and where no DO ECHO is handled
while the peer echoes, the two sides never echo at once. -/
theorem options_consistent (config : TelnetConfig) :
    (∀ inputs s, Run Step (new config) inputs s → s.Consistent) ∧
      ∀ inputs s, Run UnclashingStep (new config) inputs s →
        ¬ (s.codec.localEcho = true ∧ (s.codec.remoteOptions Opt.echo).enabled = true) := by
  refine ⟨fun inputs s h => (sound_of_run h).consistent, fun inputs s h => ?_⟩
  have key : Sound s.codec s.written ∧ s.codec.EchoExclusive := by
    refine h.invariant (I := fun s => Sound s.codec s.written ∧ s.codec.EchoExclusive)
      ⟨sound_new config, fun hf => by cases hf.1⟩ ?_
    rintro s i _ ⟨hs, he⟩ ⟨hi, rfl⟩
    exact ⟨hs.after i, echoExclusive_after hs he hi⟩
  rintro ⟨hlocal, hremote⟩
  exact key.2 ⟨key.1.tabled.localEcho.symm.trans hlocal, hremote⟩

/-- The peer enables NAWS and a window is resized. -/
theorem options_consistent_resize :
    ((((new .default).after (.receive (appendCommand Command.do Opt.naws))).after
        (.resize 100 40)).Consistent) ∧
      ¬ (((new .default).after (.receive (appendCommand Command.do Opt.echo))).codec.localEcho =
          true ∧
        (((new .default).after (.receive (appendCommand Command.do
          Opt.echo))).codec.remoteOptions Opt.echo).enabled = true) :=
  ⟨(options_consistent .default).1 _ _ ((Run.single rfl).snoc rfl),
    (options_consistent .default).2 [.receive (appendCommand Command.do Opt.echo)] _
      (Run.single ⟨by unfold Unclashing; decide, rfl⟩)⟩

/-- **Both sides may echo**: DO ECHO after WILL ECHO enables the local option beside the remote. -/
theorem both_echo :
    ¬ ∀ config inputs s, Run Step (new config) inputs s →
      ¬ (s.codec.localEcho = true ∧ (s.codec.remoteOptions Opt.echo).enabled = true) := by
  intro h
  exact h .default _ _ ((Run.single (l := .receive (appendCommand Command.will Opt.echo)) rfl).snoc
    (l := .receive (appendCommand Command.do Opt.echo)) rfl) (by decide)

end Session

end Netcatty.Telnet
