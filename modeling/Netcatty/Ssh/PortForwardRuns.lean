import Netcatty.Library.Monitor
import Netcatty.Library.Runs
import Netcatty.Ssh.PortForwardRegistry

/-! # Runs of the port forwards

What a receiver observes and what the registry lists is true as long as no task sends anything
before its starter published it (`Published`), and a task that can accept nothing any more ends only
after it was taken out of the registry (`Listed`).  What the registry promises in every run, and
what these two add in the runs they allow, is `run_truthful`. -/

namespace Netcatty.Ssh.PortForward

open Runs (Run)
open Watch (Monitor Obeys after after_concat obeys_concat)

variable {RuleId : Type}

/-! ### What a receiver observes -/

/-- What was sent to a channel so far. -/
inductive Stage
  | silent | running | over
  deriving DecidableEq, Repr

/-- The active event comes first, then errors, and the stopped event last. -/
def lifecycle : Monitor Stage PortForwardEvent where
  init := .silent
  next
    | _, .active _ _ => .running
    | stage, .connectionError _ => stage
    | _, .stopped => .over
  allowed
    | .silent, event => ∃ address port, event = .active address port
    | .running, event => ∀ address port, event ≠ .active address port
    | .over, _ => False

def ForwardMove.sends : ForwardMove → Bool
  | refused | acceptFailed _ | connectionFailed _ | finished => true
  | _ => false

/-- A task sends nothing before its starter published it, ends after a failure only when it is no
longer registered, and its receiver does not fall behind. -/
def Allowed (s : State RuleId) : Move → Prop
  | .call _ => True
  | .forward t move => ∀ f, s.forwards t = some f →
      (move.sends = true → ∀ address port, s.calls f.starter ≠ some (.publishing t address port)) ∧
      (move = .finished → f.failed = true → (f.rule.id, t) ∉ s.rules) ∧
      (move = .receive → f.events.length ≤ f.position + eventBufferSize)

namespace Forward

variable {f f' : Forward RuleId} {m : ForwardMove}

/-- The receiver has what was sent, from the first event on. -/
def Heard (f : Forward RuleId) : Prop :=
  f.position ≤ f.events.length ∧ f.received = f.events.take f.position

theorem Heard.send (h : f.Heard) (event : PortForwardEvent) : (f.send event).Heard := by
  refine ⟨?_, ?_⟩
  · show f.position ≤ (f.events ++ [event]).length
    rw [List.length_append]
    exact h.1.trans (Nat.le_add_right _ _)
  · show f.received = (f.events ++ [event]).take f.position
    rw [List.take_append_of_le_length h.1]
    exact h.2

/-- A move that sends nothing leaves the channel alone. -/
theorem move_events (h : f.move m = some f') (hm : m.sends = false) : f'.events = f.events := by
  cases m with
  | refused | acceptFailed | connectionFailed | finished => cases hm
  | receive =>
      simp only [move, recv] at h
      split at h
      · cases h
      · split_ifs at h <;> (obtain rfl := Option.some.inj h; rfl)
  | _ =>
      simp only [move] at h
      split_ifs at h
      all_goals obtain rfl := Option.some.inj h
      all_goals rfl

/-- A move that sends is the move of a task that is not over, and sends no active event. -/
theorem move_sends (h : f.move m = some f') (hok : f.Ok) (hm : m.sends = true) :
    f.phase ≠ .ended ∧
      (f'.phase ≠ .ended ∧ (∃ error, f'.events = f.events ++ [.connectionError error]) ∨
        f'.phase = .ended ∧ f'.events = f.events ++ [.stopped]) := by
  cases m with
  | refused =>
      simp only [move] at h
      split_ifs at h with hguard
      obtain rfl := Option.some.inj h
      have hphase : f.phase ≠ .ended := by rw [hguard.1]; decide
      exact ⟨hphase, .inl ⟨hphase, _, rfl⟩⟩
  | acceptFailed error =>
      simp only [move] at h
      split_ifs at h with hguard
      obtain rfl := Option.some.inj h
      exact ⟨by rw [hguard.1]; decide, .inl ⟨Phase.noConfusion, _, rfl⟩⟩
  | connectionFailed error =>
      simp only [move] at h
      split_ifs at h with hguard
      obtain rfl := Option.some.inj h
      have hphase : f.phase ≠ .ended := fun hended => by
        have := hok.idle (.inr (.inr hended))
        omega
      exact ⟨hphase, .inl ⟨hphase, _, rfl⟩⟩
  | finished =>
      simp only [move] at h
      split_ifs at h with hguard
      obtain rfl := Option.some.inj h
      exact ⟨by rw [hguard]; decide, .inr ⟨rfl, rfl⟩⟩
  | noticed | accepted | connectionEnded | joined | withdrawn | receive => cases hm

/-- Only the last move ends a task. -/
theorem move_ended (h : f.move m = some f') (hm : m.sends = false) :
    f'.phase = .ended ↔ f.phase = .ended := by
  cases m with
  | refused | acceptFailed | connectionFailed | finished => cases hm
  | receive =>
      simp only [move, recv] at h
      split at h
      · cases h
      · split_ifs at h <;> (obtain rfl := Option.some.inj h; rfl)
  | noticed | joined | withdrawn =>
      simp only [move] at h
      split_ifs at h with hguard
      all_goals obtain rfl := Option.some.inj h
      all_goals simp [hguard]
  | _ =>
      simp only [move] at h
      split_ifs at h
      all_goals obtain rfl := Option.some.inj h
      all_goals rfl

theorem Heard.move (hheard : f.Heard) (h : f.move m = some f')
    (hbehind : m = .receive → f.events.length ≤ f.position + eventBufferSize) : f'.Heard := by
  cases m with
  | receive =>
      simp only [Forward.move, recv] at h
      split at h
      · cases h
      rename_i event hevent
      rw [if_neg (by have := hbehind rfl; omega)] at h
      obtain rfl := Option.some.inj h
      have hlt := (List.getElem?_eq_some_iff.mp hevent).1
      refine ⟨hlt, ?_⟩
      show f.received ++ [event] = f.events.take (f.position + 1)
      rw [List.take_add_one, hevent, hheard.2]
      rfl
  | acceptFailed | connectionFailed | finished | refused =>
      simp only [Forward.move] at h
      split_ifs at h
      obtain rfl := Option.some.inj h
      exact hheard.send _
  | _ =>
      simp only [Forward.move] at h
      split_ifs at h
      all_goals obtain rfl := Option.some.inj h
      all_goals exact hheard

end Forward

section Published

variable {s s' : State RuleId}

/-- A task that its starter did not publish yet is silent, and one that was published has sent its
stopped event exactly if it is over. -/
structure Published (s : State RuleId) : Prop where
  obeys : ∀ t f, s.forwards t = some f → Obeys lifecycle f.events
  publishing : ∀ c t address port, s.calls c = some (.publishing t address port) →
    ∃ f, s.forwards t = some f ∧ f.starter = c ∧ f.phase ≠ .ended ∧
      after lifecycle f.events = .silent
  running : ∀ t f, s.forwards t = some f →
    (∀ address port, s.calls f.starter ≠ some (.publishing t address port)) →
    after lifecycle f.events = if f.phase = .ended then .over else .running

/-- A call that publishes nothing goes on to publish nothing. -/
theorem Published.setCall (h : Published s) {c : ℕ} {call : Call RuleId}
    (hold : ∀ t address port, s.calls c ≠ some (.publishing t address port))
    (hnew : ∀ t address port, call ≠ .publishing t address port) :
    Published (s.setCall c call) := by
  refine ⟨h.obeys, fun d t address port hd => ?_, fun t f hf hpub => ?_⟩
  · rw [State.calls_setCall] at hd
    split_ifs at hd with hdc
    · exact absurd (Option.some.inj hd) (hnew t address port)
    · exact h.publishing d t address port hd
  · refine h.running t f hf fun address port hc => hpub address port ?_
    rw [State.calls_setCall, if_neg]
    · exact hc
    · intro hfc
      exact hold t address port (hfc ▸ hc)

theorem Published.register (h : Published s) (hr : Registry s) {c : ℕ}
    {rule : NormalizedPortForwardRule RuleId}
    (hold : ∀ t address port, s.calls c ≠ some (.publishing t address port))
    (address : String) (port : ℕ) (grant : Option ℕ) :
    Published (s.register c rule address port grant) := by
  have hforwards : ∀ u, (s.register c rule address port grant).forwards u =
      if u = s.nextTunnelId then some (.spawn c rule port grant) else s.forwards u :=
    fun u => State.forwards_setForward s.nextTunnelId u _
  have hcalls : ∀ d, (s.register c rule address port grant).calls d =
      if d = c then some (.publishing s.nextTunnelId address port) else s.calls d :=
    fun d => State.calls_setCall c d _
  refine ⟨fun u f hu => ?_, fun d u a p hd => ?_, fun u f hu hpub => ?_⟩
  · rw [hforwards] at hu
    split_ifs at hu
    · obtain rfl := Option.some.inj hu
      exact Watch.obeys_nil
    · exact h.obeys u f hu
  · rw [hcalls] at hd
    split_ifs at hd with hdc
    · obtain ⟨rfl, -, -⟩ := Call.publishing.inj (Option.some.inj hd)
      exact ⟨_, (hforwards _).trans (if_pos rfl), hdc.symm, nofun, rfl⟩
    · obtain ⟨f, hf, hrest⟩ := h.publishing d u a p hd
      exact ⟨f, ((hforwards u).trans (if_neg (Nat.ne_of_lt (hr.fresh u f hf)))).trans hf, hrest⟩
  · rw [hforwards] at hu
    split_ifs at hu with hnew
    · obtain rfl := Option.some.inj hu
      exact absurd ((hcalls c).trans (by rw [if_pos rfl, hnew])) (hpub address port)
    · refine h.running u f hu fun a p hc => hpub a p ?_
      rw [hcalls, if_neg]
      · exact hc
      · intro hfc
        exact hold u a p (hfc ▸ hc)

/-- The starter publishes its task, once. -/
theorem Published.publish (h : Published s) {c t : ℕ} {address : String} {port : ℕ}
    {f : Forward RuleId} (hc : s.calls c = some (.publishing t address port))
    (hf : s.forwards t = some f) :
    Published ((s.setForward t (f.send (.active address port))).setCall c (.started t)) := by
  have hforwards : ∀ u, ((s.setForward t (f.send (.active address port))).setCall c
      (.started t)).forwards u = if u = t then some (f.send (.active address port))
        else s.forwards u := fun u => State.forwards_setForward t u _
  have hcalls : ∀ d, ((s.setForward t (f.send (.active address port))).setCall c
      (.started t)).calls d = if d = c then some (.started t) else s.calls d :=
    fun d => State.calls_setCall c d _
  obtain ⟨g, hg, hstarter, hphase, hsilent⟩ := h.publishing c t address port hc
  obtain rfl := Option.some.inj (hf.symm.trans hg)
  refine ⟨fun u g hu => ?_, fun d u a p hd => ?_, fun u g hu hpub => ?_⟩
  · rw [hforwards] at hu
    split_ifs at hu
    · obtain rfl := Option.some.inj hu
      refine obeys_concat.mpr ⟨h.obeys t f hf, ?_⟩
      rw [hsilent]
      exact ⟨address, port, rfl⟩
    · exact h.obeys u g hu
  · rw [hcalls] at hd
    have hdc : d ≠ c := fun hdc => by
      rw [if_pos hdc] at hd
      cases hd
    rw [if_neg hdc] at hd
    obtain ⟨g, hu, hgd, hrest⟩ := h.publishing d u a p hd
    refine ⟨g, ?_, hgd, hrest⟩
    rw [hforwards, if_neg]
    · exact hu
    · intro hut
      rw [hut, hf] at hu
      rw [← Option.some.inj hu] at hgd
      exact hdc (hgd.symm.trans hstarter)
  · rw [hforwards] at hu
    split_ifs at hu with hut
    · obtain rfl := Option.some.inj hu
      show after lifecycle (f.events ++ [_]) = if f.phase = .ended then _ else _
      rw [after_concat, if_neg hphase]
      rfl
    · refine h.running u g hu fun a p hd => hpub a p ?_
      rw [hcalls, if_neg]
      · exact hd
      · intro hgc
        rw [hgc, hc] at hd
        exact hut (Call.publishing.inj (Option.some.inj hd)).1.symm

theorem Published.forward (h : Published s) {t : ℕ} {f f' : Forward RuleId} {m : ForwardMove}
    (hf : s.forwards t = some f) (hmove : f.move m = some f') (hok : f.Ok)
    (hallowed : m.sends = true →
      ∀ address port, s.calls f.starter ≠ some (.publishing t address port)) :
    Published (s.setForward t f') := by
  obtain ⟨hstarter, -⟩ := Forward.move_frame hmove
  -- What the move does to the channel, and that it keeps to the lifecycle.
  have hchannel : Obeys lifecycle f'.events ∧
      ((∀ address port, s.calls f.starter ≠ some (.publishing t address port)) →
        after lifecycle f'.events = if f'.phase = .ended then .over else .running) ∧
      (m.sends = false → f'.events = f.events ∧ (f'.phase = .ended ↔ f.phase = .ended)) := by
    cases hm : m.sends with
    | false =>
        have hevents := Forward.move_events hmove hm
        have hended := Forward.move_ended hmove hm
        refine ⟨hevents ▸ h.obeys t f hf, fun hpub => ?_, fun _ => ⟨hevents, hended⟩⟩
        rw [hevents, h.running t f hf hpub]
        simp only [hended]
    | true =>
        have hpub := hallowed hm
        obtain ⟨hphase, hsent⟩ := Forward.move_sends hmove hok hm
        have hrunning := h.running t f hf hpub
        rw [if_neg hphase] at hrunning
        refine ⟨?_, fun _ => ?_, nofun⟩
        · rcases hsent with ⟨-, error, hsent⟩ | ⟨-, hsent⟩
          · rw [hsent, obeys_concat, hrunning]
            exact ⟨h.obeys t f hf, nofun⟩
          · rw [hsent, obeys_concat, hrunning]
            exact ⟨h.obeys t f hf, nofun⟩
        · rcases hsent with ⟨hphase', error, hsent⟩ | ⟨hphase', hsent⟩
          · rw [hsent, after_concat, hrunning, if_neg hphase']
            rfl
          · rw [hsent, after_concat, hrunning, if_pos hphase']
            rfl
  obtain ⟨hobeys, hafter, hsilent⟩ := hchannel
  refine ⟨fun u g hu => ?_, fun d u a p hd => ?_, fun u g hu hpub => ?_⟩
  · rw [State.forwards_setForward] at hu
    split_ifs at hu
    · exact Option.some.inj hu ▸ hobeys
    · exact h.obeys u g hu
  · obtain ⟨g, hg, hgd, hphase, hbefore⟩ := h.publishing d u a p hd
    rw [State.forwards_setForward]
    split_ifs with hut
    · obtain rfl := hut
      obtain rfl := Option.some.inj (hf.symm.trans hg)
      have hm : m.sends = false := by
        cases hm : m.sends with
        | false => rfl
        | true => exact absurd (hgd ▸ hd) (hallowed hm a p)
      obtain ⟨hevents, hended⟩ := hsilent hm
      exact ⟨f', rfl, hstarter.trans hgd, fun hend => hphase (hended.mp hend), hevents ▸ hbefore⟩
    · exact ⟨g, hg, hgd, hphase, hbefore⟩
  · rw [State.forwards_setForward] at hu
    split_ifs at hu with hut
    · obtain rfl := Option.some.inj hu
      rw [hstarter] at hpub
      exact hafter (hut ▸ hpub)
    · exact h.running u g hu hpub

/-- A task is told to stop. -/
theorem Published.cancel (h : Published s) {t : ℕ} {f : Forward RuleId}
    (hf : s.forwards t = some f) : Published (s.setForward t { f with cancelled := true }) := by
  refine ⟨fun u g hu => ?_, fun d u a p hd => ?_, fun u g hu hpub => ?_⟩
  · rw [State.forwards_setForward] at hu
    split_ifs at hu
    · obtain rfl := Option.some.inj hu
      exact h.obeys t f hf
    · exact h.obeys u g hu
  · obtain ⟨g, hg, hrest⟩ := h.publishing d u a p hd
    rw [State.forwards_setForward]
    split_ifs with hut
    · obtain rfl := hut
      obtain rfl := Option.some.inj (hf.symm.trans hg)
      exact ⟨_, rfl, hrest⟩
    · exact ⟨g, hg, hrest⟩
  · rw [State.forwards_setForward] at hu
    split_ifs at hu with hut
    · obtain rfl := Option.some.inj hu
      exact h.running t f hf (hut ▸ hpub)
    · exact h.running u g hu hpub

theorem published_initial : Published (State.initial : State RuleId) where
  obeys _ _ h := nomatch h
  publishing _ _ _ _ h := nomatch h
  running _ _ h := nomatch h

variable [DecidableEq RuleId] {m : Move}

theorem Published.step (h : Published s) (hr : Registry s)
    (hok : ∀ t f, s.forwards t = some f → f.Ok) (hs : Step s m s') (hallowed : Allowed s m) :
    Published s' := by
  -- A call that publishes nothing.
  have hother : ∀ {c call}, s.calls c = some call → (∀ t a p, call ≠ .publishing t a p) →
      ∀ t a p, s.calls c ≠ some (.publishing t a p) := by
    intro c call hc hcall t a p hpub
    exact hcall t a p (Option.some.inj (hc.symm.trans hpub))
  have hnone : ∀ {c}, s.calls c = none → ∀ t a p, s.calls c ≠ some (.publishing t a p) :=
    fun hc t a p hpub => nomatch hc.symm.trans hpub
  have hrules : ∀ rules, Published { s with rules := rules } :=
    fun _ => ⟨h.obeys, h.publishing, h.running⟩
  cases hs with
  | refused error hc => exact h.setCall (hnone hc) nofun
  | bound address port hc hkind => exact h.setCall (hnone hc) nofun
  | duplicate hc hkey => exact h.setCall (hother hc nofun) nofun
  | register hc hkey => exact h.register hr (hother hc nofun) _ _ _
  | requested hc hkind hkey => exact h.setCall (hnone hc) nofun
  | requestFailed error hc => exact h.setCall (hother hc nofun) nofun
  | @grantedNone c rule hc =>
      have hgrant : Published (s.addGrant rule.bindAddress rule.localPort) :=
        ⟨h.obeys, h.publishing, h.running⟩
      exact hgrant.setCall (hother hc nofun) nofun
  | @granted c rule port hc hport =>
      have hgrant : Published (s.addGrant rule.bindAddress port) :=
        ⟨h.obeys, h.publishing, h.running⟩
      exact hgrant.setCall (hother hc nofun) nofun
  | remoteDuplicate hc hkey => exact h.setCall (hother hc nofun) nofun
  | registerRemote hc hkey => exact h.register hr (hother hc nofun) _ _ _
  | @withdrew c grant address port error hc =>
      have hcancel : Published (s.cancelRemoteForward grant address port) :=
        ⟨h.obeys, h.publishing, h.running⟩
      exact hcancel.setCall (hother hc nofun) nofun
  | published hc hf => exact h.publish hc hf
  | stop hc hrule => exact (hrules _).setCall (hnone hc) nofun
  | stopAll hc => exact (hrules _).setCall (hnone hc) nofun
  | cancelled hc hf => exact (h.cancel hf).setCall (hother hc nofun) nofun
  | returned hc => exact h.setCall (hother hc nofun) nofun
  | forward move hf hmove hwithdrawn hreceive =>
      exact h.forward hf hmove (hok _ _ hf) (hallowed _ hf).1
  | forwardWithdrawn hf hmove hgrant =>
      have hforward := h.forward hf hmove (hok _ _ hf) nofun
      exact ⟨hforward.obeys, hforward.publishing, hforward.running⟩

/-- The receiver of every starter has heard everything up to where it is. -/
theorem Step.forwards_heard (hs : Step s m s') (hallowed : Allowed s m)
    (h : ∀ t f, s.forwards t = some f → f.Heard) : ∀ t f, s'.forwards t = some f → f.Heard := by
  have hset : ∀ {t f'}, f'.Heard → ∀ u f, (s.setForward t f').forwards u = some f → f.Heard := by
    intro t f' hf' u f hu
    rw [State.forwards_setForward] at hu
    split_ifs at hu with hut
    · exact Option.some.inj hu ▸ hf'
    · exact h u f hu
  cases hs with
  | register hc hkey | registerRemote hc hkey => exact hset ⟨Nat.le_refl 0, rfl⟩
  | published hc hf => exact hset ((h _ _ hf).send _)
  | cancelled hc hf =>
      obtain ⟨hle, hreceived⟩ := h _ _ hf
      exact hset ⟨hle, hreceived⟩
  | forward move hf hm hwithdrawn hreceive =>
      exact hset ((h _ _ hf).move hm (hallowed _ hf).2.2)
  | forwardWithdrawn hf hm hgrant => exact hset ((h _ _ hf).move hm nofun)
  | _ => exact h

end Published

/-! ### The listing -/

section Listed

variable {s s' : State RuleId}

/-- No task that is over is registered. -/
def Listed (s : State RuleId) : Prop :=
  ∀ id t f, (id, t) ∈ s.rules → s.forwards t = some f → f.phase ≠ .ended

variable [DecidableEq RuleId] {m : Move}

theorem Listed.step (h : Listed s) (hr : Registry s)
    (hok : ∀ t f, s.forwards t = some f → f.Ok) (hs : Step s m s') (hallowed : Allowed s m) :
    Listed s' := by
  have hset : ∀ {t f'}, ((∃ id, (id, t) ∈ s.rules) → f'.phase ≠ .ended) →
      ∀ id u f, (id, u) ∈ s.rules → (s.setForward t f').forwards u = some f → f.phase ≠ .ended := by
    intro t f' hf' id u f hid hu
    rw [State.forwards_setForward] at hu
    split_ifs at hu with hut
    · obtain rfl := Option.some.inj hu
      exact hf' ⟨id, hut ▸ hid⟩
    · exact h id u f hid hu
  have hregister : ∀ {c rule address port grant},
      Listed (s.register c rule address port grant) := by
    intro c rule address port grant id u f hid hu
    have hforwards : (s.register c rule address port grant).forwards u =
        if u = s.nextTunnelId then some (.spawn c rule port grant) else s.forwards u :=
      State.forwards_setForward s.nextTunnelId u _
    rw [hforwards] at hu
    split_ifs at hu with hnew
    · obtain rfl := Option.some.inj hu
      exact nofun
    · have hrules : (id, u) ∈ (rule.id, s.nextTunnelId) :: s.rules := hid
      rcases List.mem_cons.mp hrules with heq | hid
      · exact absurd (Prod.mk.inj heq).2 hnew
      · exact h id u f hid hu
  cases hs with
  | register hc hkey | registerRemote hc hkey => exact hregister
  | published hc hf | cancelled hc hf =>
      have hphase := fun id hid => h id _ _ hid hf
      exact hset fun ⟨id, hid⟩ => hphase id hid
  | stop hc hrule => exact fun id t f hid hf => h id t f (List.mem_filter.mp hid).1 hf
  | stopAll hc => exact fun id t f hid hf => nomatch hid
  | @forward t f f' move hf hm hwithdrawn hreceive =>
      refine hset fun ⟨id, hid⟩ => ?_
      obtain ⟨g, hg, hrule, hcancelled⟩ := hr.registered id t hid
      obtain rfl := Option.some.inj (hf.symm.trans hg)
      by_cases hfinished : move = .finished
      · -- It was not told to stop, so that it failed, and may not end while it is registered.
        obtain rfl := hfinished
        simp only [Forward.move] at hm
        split_ifs at hm with hleaving
        have hleft := (hok t f hf).left (by rw [hleaving]; decide)
        rw [hcancelled] at hleft
        have hfailed := hleft.resolve_left Bool.false_ne_true
        exact absurd (hrule ▸ hid) ((hallowed f hf).2.1 rfl hfailed)
      · have hphase := h id t f hid hf
        cases hsends : move.sends with
        | false => exact fun hended => hphase ((Forward.move_ended hm hsends).mp hended)
        | true =>
            rcases (Forward.move_sends hm (hok t f hf) hsends).2 with ⟨hnot, -⟩ | ⟨hended, -⟩
            · exact hnot
            · cases move with
              | finished => exact absurd rfl hfinished
              | refused | connectionFailed =>
                  simp only [Forward.move] at hm
                  split_ifs at hm
                  obtain rfl := Option.some.inj hm
                  exact absurd hended hphase
              | acceptFailed =>
                  simp only [Forward.move] at hm
                  split_ifs at hm
                  obtain rfl := Option.some.inj hm
                  cases hended
              | _ => cases hsends
  | @forwardWithdrawn t f f' grant hf hm hgrant =>
      refine hset fun ⟨id, hid⟩ => ?_
      have hphase := h id t f hid hf
      exact fun hended => hphase ((Forward.move_ended hm rfl).mp hended)
  | _ => exact h

end Listed

/-! ### Runs -/

section Runs

/-- A granted forward is given back, in the hands of a call, registered, or carried by a task that
still has to give it back and was told to stop, or is about to be. -/
def Kept (s : State RuleId) (lease : ℕ × String × ℕ) : Prop :=
  lease ∈ s.withdrawn ∨ (∃ c call, s.calls c = some call ∧ call.lease = some lease) ∨
    ∃ t f, s.forwards t = some f ∧ f.lease = some lease ∧
      ((f.rule.id, t) ∈ s.rules ∨ f.phase ≠ .leaving ∧ f.phase ≠ .ended ∧
        (f.cancelled = true ∨ ∃ c ts, s.calls c = some (.stopping ts) ∧ t ∈ ts))

theorem Grants.kept {s : State RuleId} (h : Grants s) (hr : Registry s) {lease : ℕ × String × ℕ}
    (hlease : s.grants[lease.1]? = some lease.2) : Kept s lease := by
  refine (h.carried lease hlease).elim .inl fun hcarried => ?_
  rcases hcarried with hcall | ⟨t, f, hf, hheld⟩
  · exact .inr (.inl hcall)
  · rcases hr.tracked t f hf with hrule | htold
    · exact .inr (.inr ⟨t, f, hf, hheld, .inl hrule⟩)
    · by_cases hphase : f.phase = .leaving ∨ f.phase = .ended
      · exact .inl (h.ended t f lease hf hheld hphase)
      · rw [not_or] at hphase
        exact .inr (.inr ⟨t, f, hf, hheld, .inr ⟨hphase.1, hphase.2, htold⟩⟩)

/-- Nothing is under way: no call has a remote forward in its hands or tasks to stop, and every task
that was told to stop has ended. -/
def Settled (s : State RuleId) : Prop :=
  (∀ c call, s.calls c = some call → call.lease = none ∧ ∀ t ts, call ≠ .stopping (t :: ts)) ∧
    ∀ t f, s.forwards t = some f → f.cancelled = true → f.phase = .ended

theorem forwards_initial (P : Forward RuleId → Prop) (t : ℕ) (f : Forward RuleId)
    (h : (State.initial : State RuleId).forwards t = some f) : P f := nomatch h

theorem listed_initial : Listed (State.initial : State RuleId) :=
  fun _ t f _ hf => forwards_initial (fun f => f.phase ≠ .ended) t f hf

variable [LinearOrder RuleId]

theorem mem_activeTunnels {s : State RuleId} {id : RuleId} {t : ℕ} :
    (id, t) ∈ s.activeTunnels ↔ (id, t) ∈ s.rules :=
  (List.mergeSort_perm _ _).mem_iff

theorem registry_run {ls : List Move} {s : State RuleId} (h : Run Step State.initial ls s) :
    Registry s ∧ Grants s ∧ ∀ t f, s.forwards t = some f → f.Ok :=
  h.invariant (I := fun s => Registry s ∧ Grants s ∧ ∀ t f, s.forwards t = some f → f.Ok)
    ⟨registry_initial, grants_initial, forwards_initial _⟩
    fun _ _ _ ⟨hr, hg, hok⟩ hs => ⟨hr.step hs, hg.step hr hs, hs.forwards_ok hok⟩

theorem allowed_run {ls : List Move} {s : State RuleId}
    (h : Run (fun s m s' => Allowed s m ∧ Step s m s') State.initial ls s) :
    Published s ∧ Listed s ∧ ∀ t f, s.forwards t = some f → f.Heard := by
  have hinv := h.invariant
    (I := fun s => (Registry s ∧ ∀ t f, s.forwards t = some f → f.Ok) ∧ Published s ∧ Listed s ∧
      ∀ t f, s.forwards t = some f → f.Heard)
    ⟨⟨registry_initial, forwards_initial _⟩, published_initial, listed_initial,
      forwards_initial _⟩ (by
      rintro s m s' ⟨⟨hr, hok⟩, hpub, hlisted, hheard⟩ ⟨hallowed, hs⟩
      exact ⟨⟨hr.step hs, hs.forwards_ok hok⟩, hpub.step hr hok hs hallowed,
        hlisted.step hr hok hs hallowed, hs.forwards_heard hallowed hheard⟩)
  exact hinv.2

/-- **The registry, the events and the listing are truthful.**  In every state of every run a rule
has one registered tunnel at most, which is a task of that rule, and every remote forward that the
server granted is kept track of: when nothing is under way it is registered or given back.  Where
every step was allowed, a receiver that `start` or `start_remote` returned has heard the active
event before any other and nothing after the stopped event, and every listed rule has a task that
has not ended. -/
theorem run_truthful :
    (∀ (ls : List Move) (s : State RuleId), Run Step State.initial ls s →
      (s.activeTunnels.map Prod.fst).Nodup ∧
      (∀ id t, (id, t) ∈ s.activeTunnels → ∃ f, s.forwards t = some f ∧ f.rule.id = id) ∧
      ∀ lease, s.grants[lease.1]? = some lease.2 → Kept s lease ∧
        (Settled s → lease ∈ s.withdrawn ∨
          ∃ t f, s.forwards t = some f ∧ f.lease = some lease ∧
            (f.rule.id, t) ∈ s.activeTunnels)) ∧
    (∀ (ls : List Move) (s : State RuleId),
      Run (fun s m s' => Allowed s m ∧ Step s m s') State.initial ls s →
      (∀ c t, s.calls c = some (.started t) → ∀ f, s.forwards t = some f →
        Obeys lifecycle f.received) ∧
      ∀ id t, (id, t) ∈ s.activeTunnels → ∃ f, s.forwards t = some f ∧ f.phase ≠ .ended) := by
  refine ⟨fun ls s h => ?_, fun ls s h => ?_⟩
  · obtain ⟨hr, hg, -⟩ := registry_run h
    refine ⟨?_, fun id t ht => ?_, fun lease hlease => ?_⟩
    · exact (((List.mergeSort_perm _ _).map Prod.fst).nodup_iff).mpr hr.keys
    · obtain ⟨f, hf, hid, -⟩ := hr.registered id t (mem_activeTunnels.mp ht)
      exact ⟨f, hf, hid⟩
    · have hkept := hg.kept hr hlease
      refine ⟨hkept, fun ⟨hcalls, htasks⟩ => ?_⟩
      rcases hkept with hdone | ⟨c, call, hc, hcall⟩ | ⟨t, f, hf, hheld, hrule | htold⟩
      · exact .inl hdone
      · rw [(hcalls c call hc).1] at hcall
        cases hcall
      · exact .inr ⟨t, f, hf, hheld, mem_activeTunnels.mpr hrule⟩
      · obtain ⟨-, hended, hcancelled | ⟨c, ts, hc, ht⟩⟩ := htold
        · exact absurd (htasks t f hf hcancelled) hended
        · obtain ⟨u, us, rfl⟩ := List.exists_cons_of_ne_nil (List.ne_nil_of_mem ht)
          exact absurd rfl ((hcalls c _ hc).2 u us)
  · obtain ⟨hpub, hlisted, hheard⟩ := allowed_run h
    have hrun := registry_run (h.mono fun _ _ _ hs => hs.2)
    refine ⟨fun c t hc f hf => ?_, fun id t ht => ?_⟩
    · obtain ⟨-, hreceived⟩ := hheard t f hf
      have hobeys := hpub.obeys t f hf
      rw [← List.take_append_drop f.position f.events, ← hreceived] at hobeys
      exact hobeys.left
    · rw [mem_activeTunnels] at ht
      obtain ⟨f, hf, -⟩ := hrun.1.registered id t ht
      exact ⟨f, hf, hlisted id t f ht hf⟩

/-- A rule that forwards a local port. -/
def databaseRule : NormalizedPortForwardRule ℕ where
  id := 7
  kind := .localForward
  bindAddress := "127.0.0.1"
  localPort := 15432
  remoteHost := some "127.0.0.1"
  remotePort := some 22
  target_ok _ := ⟨rfl, rfl⟩

/-- The task fails and ends before its starter publishes it: the receiver hears that it is active
after it stopped, and the rule stays listed. -/
theorem active_after_stopped :
    ∃ (ls : List Move) (s : State ℕ) (f : Forward ℕ), Run Step State.initial ls s ∧
      s.calls 0 = some (.started 1) ∧ s.forwards 1 = some f ∧
      f.received = [.connectionError PortForwardError.bindFailed.toString, .stopped,
        .active "127.0.0.1" 15432] ∧
      (7, 1) ∈ s.activeTunnels ∧ f.phase = .ended := by
  have h₁ : Run Step State.initial [.call 0]
      (State.initial.setCall 0 (.bound databaseRule "127.0.0.1" 15432)) :=
    Run.single (.bound _ _ rfl (by decide))
  have h₂ := h₁.snoc (Step.register (c := 0) rfl nofun)
  have h₃ := h₂.snoc (Step.forward (t := 1) (.acceptFailed .bindFailed) rfl rfl nofun nofun)
  have h₄ := h₃.snoc (Step.forward (t := 1) .joined rfl rfl nofun nofun)
  have h₅ := h₄.snoc (Step.forward (t := 1) .finished rfl rfl nofun nofun)
  have h₆ := h₅.snoc (Step.published (c := 0) rfl rfl)
  have h₇ := h₆.snoc (Step.forward (t := 1) .receive rfl rfl nofun fun _ => rfl)
  have h₈ := h₇.snoc (Step.forward (t := 1) .receive rfl rfl nofun fun _ => rfl)
  have h₉ := h₈.snoc (Step.forward (t := 1) .receive rfl rfl nofun fun _ => rfl)
  exact ⟨_, _, _, h₉, rfl, rfl, rfl, mem_activeTunnels.mpr List.mem_cons_self, rfl⟩

end Runs

end Netcatty.Ssh.PortForward
