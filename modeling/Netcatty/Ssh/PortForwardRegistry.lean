import Netcatty.Ssh.PortForward

/-! # The registry of port forwards

However calls and tasks interleave, a rule has one registered tunnel at most, every task is
registered or was told to stop (`Registry`), and a remote forward that the server granted is in the
hands of a call or a task until it was given back (`Grants`). -/

namespace Netcatty.Ssh.PortForward

variable {RuleId : Type}

/-! ### Tasks -/

namespace Forward

variable {f f' : Forward RuleId} {m : ForwardMove}

/-- What no move of a task changes. -/
theorem move_frame (h : f.move m = some f') :
    f'.starter = f.starter ∧ f'.rule = f.rule ∧ f'.assignedPort = f.assignedPort ∧
      f'.grant = f.grant ∧ f'.cancelled = f.cancelled := by
  cases m with
  | receive =>
      simp only [move, recv] at h
      split at h
      · cases h
      · split_ifs at h <;> (obtain rfl := Option.some.inj h; exact ⟨rfl, rfl, rfl, rfl, rfl⟩)
  | _ =>
      simp only [move] at h
      split_ifs at h
      all_goals obtain rfl := Option.some.inj h
      all_goals exact ⟨rfl, rfl, rfl, rfl, rfl⟩

/-- A task leaves its loop because it was told to or can accept nothing more, and has no connections
when it goes on to end. -/
structure Ok (f : Forward RuleId) : Prop where
  left : f.phase ≠ .accepting → f.cancelled = true ∨ f.failed = true
  idle : f.phase = .cancelling ∨ f.phase = .leaving ∨ f.phase = .ended → f.connections = 0

theorem ok_spawn (starter : ℕ) (rule : NormalizedPortForwardRule RuleId) (assignedPort : ℕ)
    (grant : Option ℕ) : (spawn starter rule assignedPort grant).Ok :=
  ⟨fun h => absurd rfl h, fun _ => rfl⟩

theorem Ok.send (h : f.Ok) (event : PortForwardEvent) : (f.send event).Ok := ⟨h.left, h.idle⟩

theorem Ok.cancel (h : f.Ok) : { f with cancelled := true }.Ok := ⟨fun _ => .inl rfl, h.idle⟩

theorem Ok.move (h : f.Ok) (hm : f.move m = some f') : f'.Ok := by
  cases m with
  | noticed =>
      simp only [Forward.move] at hm
      split_ifs at hm with hguard
      obtain rfl := Option.some.inj hm
      exact ⟨fun _ => .inl hguard.2, by rintro (h | h | h) <;> cases h⟩
  | accepted =>
      simp only [Forward.move] at hm
      split_ifs at hm with hguard
      obtain rfl := Option.some.inj hm
      refine ⟨h.left, fun hphase => ?_⟩
      simp only [hguard.1, reduceCtorEq, or_self] at hphase
  | refused =>
      simp only [Forward.move] at hm
      split_ifs at hm with hguard
      obtain rfl := Option.some.inj hm
      exact h.send _
  | acceptFailed error =>
      simp only [Forward.move] at hm
      split_ifs at hm with hguard
      obtain rfl := Option.some.inj hm
      exact ⟨fun _ => .inr rfl, by rintro (h | h | h) <;> cases h⟩
  | connectionEnded =>
      simp only [Forward.move] at hm
      split_ifs at hm with hguard
      obtain rfl := Option.some.inj hm
      exact ⟨h.left, fun hphase => by have := h.idle hphase; omega⟩
  | connectionFailed error =>
      simp only [Forward.move] at hm
      split_ifs at hm with hguard
      obtain rfl := Option.some.inj hm
      exact ⟨h.left, fun hphase => by have := h.idle hphase; omega⟩
  | joined =>
      simp only [Forward.move] at hm
      split_ifs at hm with hguard
      all_goals obtain rfl := Option.some.inj hm
      all_goals exact ⟨fun _ => h.left (by rw [hguard.1]; decide), fun _ => hguard.2⟩
  | withdrawn =>
      simp only [Forward.move] at hm
      split_ifs at hm with hguard
      obtain rfl := Option.some.inj hm
      exact ⟨fun _ => h.left (by rw [hguard]; decide), fun _ => h.idle (.inl hguard)⟩
  | finished =>
      simp only [Forward.move] at hm
      split_ifs at hm with hguard
      obtain rfl := Option.some.inj hm
      exact ⟨fun _ => h.left (by rw [hguard]; decide), fun _ => h.idle (.inr (.inl hguard))⟩
  | receive =>
      simp only [Forward.move, recv] at hm
      split at hm
      · cases hm
      · split_ifs at hm <;> (obtain rfl := Option.some.inj hm; exact ⟨h.left, h.idle⟩)

/-- The remote forward that a task serves, with the address and port it is given back under. -/
def lease (f : Forward RuleId) : Option (ℕ × String × ℕ) :=
  f.grant.map fun grant => (grant, f.rule.bindAddress, f.assignedPort)

theorem lease_move (h : f.move m = some f') : f'.lease = f.lease := by
  obtain ⟨-, hrule, hport, hgrant, -⟩ := move_frame h
  rw [lease, hrule, hport, hgrant]
  rfl

/-- A task that serves a remote forward does not end without giving it back. -/
theorem move_phase (h : f.move m = some f') (hm : m ≠ .withdrawn) {lease : ℕ × String × ℕ}
    (hlease : f.lease = some lease) (hphase : f'.phase = .leaving ∨ f'.phase = .ended) :
    f.phase = .leaving ∨ f.phase = .ended := by
  cases m with
  | joined =>
      simp only [move] at h
      split_ifs at h with hguard hgrant
      · obtain rfl := Option.some.inj h
        simp at hphase
      · rw [Forward.lease, Option.map_eq_some_iff] at hlease
        obtain ⟨grant, hgrant', -⟩ := hlease
        rw [hgrant'] at hgrant
        exact absurd rfl hgrant
  | withdrawn => exact absurd rfl hm
  | receive =>
      simp only [move, recv] at h
      split at h
      · cases h
      · split_ifs at h <;> (obtain rfl := Option.some.inj h; exact hphase)
  | noticed | acceptFailed =>
      simp only [move] at h
      split_ifs at h with hguard
      obtain rfl := Option.some.inj h
      simp at hphase
  | finished =>
      simp only [move] at h
      split_ifs at h with hguard
      exact .inl hguard
  | _ =>
      simp only [move] at h
      split_ifs at h
      all_goals obtain rfl := Option.some.inj h
      all_goals exact hphase

end Forward

/-! ### Updates -/

namespace State

variable {s : State RuleId}

theorem calls_setCall (c d : ℕ) (call : Call RuleId) :
    (s.setCall c call).calls d = if d = c then some call else s.calls d :=
  Function.update_apply _ _ _ _

theorem forwards_setForward (t u : ℕ) (f : Forward RuleId) :
    (s.setForward t f).forwards u = if u = t then some f else s.forwards u :=
  Function.update_apply _ _ _ _

end State

section Registry

variable {s s' : State RuleId}

/-! ### The registry -/

/-- Every task is registered under its own rule, or was told to stop, or is about to be. -/
structure Registry (s : State RuleId) : Prop where
  keys : (s.rules.map Prod.fst).Nodup
  registered : ∀ id t, (id, t) ∈ s.rules →
    ∃ f, s.forwards t = some f ∧ f.rule.id = id ∧ f.cancelled = false
  fresh : ∀ t f, s.forwards t = some f → t < s.nextTunnelId
  stopping : ∀ c ts, s.calls c = some (.stopping ts) → ∀ t ∈ ts,
    (∃ f, s.forwards t = some f) ∧ ∀ id, (id, t) ∉ s.rules
  tracked : ∀ t f, s.forwards t = some f →
    (f.rule.id, t) ∈ s.rules ∨ f.cancelled = true ∨
      ∃ c ts, s.calls c = some (.stopping ts) ∧ t ∈ ts

/-- A step that leaves the tasks to be stopped as they are. -/
structure Quiet (s s' : State RuleId) : Prop where
  rules : s'.rules = s.rules
  forwards : s'.forwards = s.forwards
  nextTunnelId : s'.nextTunnelId = s.nextTunnelId
  stopping : ∀ c ts, ts ≠ [] →
    (s'.calls c = some (.stopping ts) ↔ s.calls c = some (.stopping ts))

theorem Registry.quiet (h : Registry s) (hq : Quiet s s') : Registry s' := by
  obtain ⟨hrules, hforwards, hnext, hcalls⟩ := hq
  have hstopping : ∀ {c ts t}, t ∈ ts →
      (s'.calls c = some (.stopping ts) ↔ s.calls c = some (.stopping ts)) :=
    fun ht => hcalls _ _ (List.ne_nil_of_mem ht)
  refine ⟨hrules ▸ h.keys, ?_, ?_, fun c ts hc t ht => ?_, fun t f hf => ?_⟩
  · rw [hrules, hforwards]
    exact h.registered
  · rw [hforwards, hnext]
    exact h.fresh
  · rw [hforwards, hrules]
    exact h.stopping c ts ((hstopping ht).mp hc) t ht
  · rw [hforwards] at hf
    rw [hrules]
    refine (h.tracked t f hf).imp_right (Or.imp_right ?_)
    rintro ⟨c, ts, hc, ht⟩
    exact ⟨c, ts, (hstopping ht).mpr hc, ht⟩

theorem quiet_setCall {c : ℕ} {call : Call RuleId}
    (hold : ∀ ts, s.calls c = some (.stopping ts) → ts = [])
    (hnew : ∀ ts, call = .stopping ts → ts = []) : Quiet s (s.setCall c call) := by
  refine ⟨rfl, rfl, rfl, fun d ts hts => ?_⟩
  rw [State.calls_setCall]
  split_ifs with hd
  · obtain rfl := hd
    constructor
    · intro h
      exact absurd (hnew ts (Option.some.inj h)) hts
    · intro h
      exact absurd (hold ts h) hts
  · rfl

theorem Registry.setForward (h : Registry s) {t : ℕ} {f f' : Forward RuleId}
    (hf : s.forwards t = some f) (hrule : f'.rule = f.rule)
    (hcancelled : f'.cancelled = f.cancelled) :
    Registry (s.setForward t f') := by
  refine ⟨h.keys, fun id u hu => ?_, fun u g hg => ?_, fun c ts hc u hu => ?_, fun u g hg => ?_⟩
  · rw [State.forwards_setForward]
    obtain ⟨g, hg, hid, hnot⟩ := h.registered id u hu
    split_ifs with hut
    · obtain rfl := hut
      obtain rfl := Option.some.inj (hf.symm.trans hg)
      exact ⟨f', rfl, hrule ▸ hid, hcancelled.trans hnot⟩
    · exact ⟨g, hg, hid, hnot⟩
  · rw [State.forwards_setForward] at hg
    split_ifs at hg with hut
    · exact hut ▸ h.fresh t f hf
    · exact h.fresh u g hg
  · obtain ⟨⟨g, hg⟩, hnot⟩ := h.stopping c ts hc u hu
    refine ⟨?_, hnot⟩
    rw [State.forwards_setForward]
    split_ifs
    · exact ⟨f', rfl⟩
    · exact ⟨g, hg⟩
  · rw [State.forwards_setForward] at hg
    split_ifs at hg with hut
    · obtain rfl := Option.some.inj hg
      rw [hrule, hcancelled, hut]
      exact h.tracked t f hf
    · exact h.tracked u g hg

theorem Registry.register (h : Registry s) {c : ℕ} {rule : NormalizedPortForwardRule RuleId}
    (hold : ∀ ts, s.calls c ≠ some (.stopping ts)) (hkey : ¬s.containsKey rule.id)
    (address : String) (port : ℕ) (grant : Option ℕ) :
    Registry (s.register c rule address port grant) := by
  have hforwards : ∀ u, (s.register c rule address port grant).forwards u =
      if u = s.nextTunnelId then some (.spawn c rule port grant) else s.forwards u :=
    fun u => State.forwards_setForward s.nextTunnelId u _
  have hcalls : ∀ d, (s.register c rule address port grant).calls d =
      if d = c then some (.publishing s.nextTunnelId address port) else s.calls d :=
    fun d => State.calls_setCall c d _
  have hrules : (s.register c rule address port grant).rules =
      (rule.id, s.nextTunnelId) :: s.rules := rfl
  have hne : ∀ {u f}, s.forwards u = some f → u ≠ s.nextTunnelId :=
    fun hu => Nat.ne_of_lt (h.fresh _ _ hu)
  refine ⟨?_, fun id u hu => ?_, fun u f hu => ?_, fun d ts hd t ht => ?_, fun u f hu => ?_⟩
  · rw [hrules, List.map_cons, List.nodup_cons]
    exact ⟨hkey, h.keys⟩
  · rw [hrules, List.mem_cons] at hu
    rw [hforwards]
    rcases hu with hu | hu
    · obtain ⟨rfl, rfl⟩ := Prod.mk.inj hu
      exact ⟨_, if_pos rfl, rfl, rfl⟩
    · obtain ⟨f, hf, hid, hnot⟩ := h.registered id u hu
      exact ⟨f, (if_neg (hne hf)).trans hf, hid, hnot⟩
  · rw [hforwards] at hu
    show u < s.nextTunnelId + 1
    split_ifs at hu with hnew
    · omega
    · have := h.fresh u f hu
      omega
  · rw [hcalls] at hd
    rw [if_neg fun hdc => by rw [if_pos hdc] at hd; cases hd] at hd
    obtain ⟨⟨f, hf⟩, hnot⟩ := h.stopping d ts hd t ht
    refine ⟨⟨f, by rw [hforwards, if_neg (hne hf), hf]⟩, fun id hid => ?_⟩
    rw [hrules, List.mem_cons] at hid
    rcases hid with hid | hid
    · exact hne hf (Prod.mk.inj hid).2
    · exact hnot id hid
  · rw [hforwards] at hu
    rw [hrules]
    split_ifs at hu with hnew
    · obtain rfl := Option.some.inj hu
      exact .inl (hnew ▸ List.mem_cons_self)
    · refine (h.tracked u f hu).imp (List.mem_cons_of_mem _) (Or.imp_right ?_)
      rintro ⟨d, ts, hd, hts⟩
      refine ⟨d, ts, ?_, hts⟩
      rw [hcalls, if_neg]
      · exact hd
      · rintro rfl
        exact hold ts hd

/-- Tasks are taken out of the registry by a call that will tell them to stop. -/
theorem Registry.remove (h : Registry s) {c : ℕ} (hold : s.calls c = none)
    {kept : List (RuleId × ℕ)} {ts : List ℕ} (hkept : kept.Sublist s.rules)
    (hts : ∀ id t, (id, t) ∈ s.rules → ((id, t) ∈ kept ↔ t ∉ ts))
    (hin : ∀ t ∈ ts, ∃ id, (id, t) ∈ s.rules) :
    Registry ({ s with rules := kept }.setCall c (.stopping ts)) := by
  have hcalls : ∀ d, ({ s with rules := kept }.setCall c (.stopping ts)).calls d =
      if d = c then some (.stopping ts) else s.calls d := fun d => State.calls_setCall c d _
  refine ⟨h.keys.sublist (hkept.map _), fun id t ht => h.registered id t (hkept.subset ht),
    h.fresh, fun d us hd t ht => ?_, fun t f hf => ?_⟩
  · rw [hcalls] at hd
    split_ifs at hd with hdc
    · obtain rfl : ts = us := by cases hd; rfl
      obtain ⟨id, hid⟩ := hin t ht
      obtain ⟨f, hf, -⟩ := h.registered id t hid
      refine ⟨⟨f, hf⟩, fun id' hid' => ?_⟩
      exact (hts id' t (hkept.subset hid')).mp hid' ht
    · obtain ⟨hf, hnot⟩ := h.stopping d us hd t ht
      exact ⟨hf, fun id hid => hnot id (hkept.subset hid)⟩
  · have hkeep : ∀ d us, s.calls d = some (.stopping us) →
        ({ s with rules := kept }.setCall c (.stopping ts)).calls d = some (.stopping us) := by
      intro d us hd
      rw [hcalls, if_neg]
      · exact hd
      · rintro rfl
        rw [hold] at hd
        cases hd
    rcases h.tracked t f hf with hrule | hcancelled | ⟨d, us, hd, hus⟩
    · by_cases ht : t ∈ ts
      · exact .inr (.inr ⟨c, ts, (hcalls c).trans (if_pos rfl), ht⟩)
      · exact .inl ((hts _ t hrule).mpr ht)
    · exact .inr (.inl hcancelled)
    · exact .inr (.inr ⟨d, us, hkeep d us hd, hus⟩)

theorem Registry.cancel (h : Registry s) {c t : ℕ} {ts : List ℕ} {f : Forward RuleId}
    (hc : s.calls c = some (.stopping (t :: ts))) (hf : s.forwards t = some f) :
    Registry ((s.setForward t { f with cancelled := true }).setCall c (.stopping ts)) := by
  have hforwards : ∀ u, ((s.setForward t { f with cancelled := true }).setCall c
      (.stopping ts)).forwards u =
        if u = t then some { f with cancelled := true } else s.forwards u :=
    fun u => State.forwards_setForward t u _
  have hcalls : ∀ d, ((s.setForward t { f with cancelled := true }).setCall c
      (.stopping ts)).calls d = if d = c then some (.stopping ts) else s.calls d :=
    fun d => State.calls_setCall c d _
  have hout : ∀ id, (id, t) ∉ s.rules := (h.stopping c _ hc t List.mem_cons_self).2
  refine ⟨h.keys, fun id u hu => ?_, fun u g hg => ?_, fun d us hd u hu => ?_, fun u g hg => ?_⟩
  · rw [hforwards, if_neg]
    · exact h.registered id u hu
    · rintro rfl
      exact hout id hu
  · rw [hforwards] at hg
    split_ifs at hg with hut
    · exact hut ▸ h.fresh t f hf
    · exact h.fresh u g hg
  · have hstop : (∃ g, s.forwards u = some g) ∧ ∀ id, (id, u) ∉ s.rules := by
      rw [hcalls] at hd
      split_ifs at hd with hdc
      · obtain rfl : ts = us := by cases hd; rfl
        exact h.stopping c _ hc u (List.mem_cons_of_mem _ hu)
      · exact h.stopping d us hd u hu
    obtain ⟨⟨g, hg⟩, hnot⟩ := hstop
    refine ⟨?_, hnot⟩
    rw [hforwards]
    split_ifs
    · exact ⟨_, rfl⟩
    · exact ⟨g, hg⟩
  · rw [hforwards] at hg
    split_ifs at hg with hut
    · obtain rfl := Option.some.inj hg
      exact .inr (.inl rfl)
    · refine (h.tracked u g hg).imp_right (Or.imp_right ?_)
      rintro ⟨d, us, hd, hus⟩
      by_cases hdc : d = c
      · obtain rfl := hdc
        obtain rfl : t :: ts = us := by rw [hc] at hd; cases hd; rfl
        exact ⟨d, ts, (hcalls d).trans (if_pos rfl), (List.mem_cons.mp hus).resolve_left hut⟩
      · exact ⟨d, us, ((hcalls d).trans (if_neg hdc)).trans hd, hus⟩

/-- A rule and a registered task determine each other. -/
theorem Registry.id_eq_iff (h : Registry s) {id id' : RuleId} {t t' : ℕ}
    (hrule : (id, t) ∈ s.rules) (hrule' : (id', t') ∈ s.rules) : id = id' ↔ t = t' := by
  constructor
  · rintro rfl
    exact (Prod.mk.inj (List.inj_on_of_nodup_map h.keys hrule hrule' rfl)).2
  · rintro rfl
    obtain ⟨f, hf, rfl, -⟩ := h.registered id t hrule
    obtain ⟨f', hf', rfl, -⟩ := h.registered id' t hrule'
    rw [Option.some.inj (hf.symm.trans hf')]

theorem Registry.addGrant (h : Registry s) (address : String) (port : ℕ) :
    Registry (s.addGrant address port) := h.quiet ⟨rfl, rfl, rfl, fun _ _ _ => Iff.rfl⟩

theorem Registry.cancelRemoteForward (h : Registry s) (grant : ℕ) (address : String) (port : ℕ) :
    Registry (s.cancelRemoteForward grant address port) :=
  h.quiet ⟨rfl, rfl, rfl, fun _ _ _ => Iff.rfl⟩

/-- A call that stops nothing goes on to stop nothing. -/
theorem Registry.setCall (h : Registry s) {c : ℕ} {call : Call RuleId}
    (hold : ∀ ts, s.calls c = some (.stopping ts) → ts = [])
    (hnew : ∀ ts, call = .stopping ts → ts = []) : Registry (s.setCall c call) :=
  h.quiet (quiet_setCall hold hnew)

theorem registry_initial : Registry (State.initial : State RuleId) where
  keys := List.nodup_nil
  registered _ _ h := nomatch h
  fresh _ _ h := nomatch h
  stopping _ _ h := nomatch h
  tracked _ _ h := nomatch h

variable [DecidableEq RuleId] {m : Move}

theorem Registry.step (h : Registry s) (hs : Step s m s') : Registry s' := by
  cases hs with
  | refused error hc =>
      exact h.setCall (fun ts hts => nomatch hc.symm.trans hts) nofun
  | bound address port hc hkind =>
      exact h.setCall (fun ts hts => nomatch hc.symm.trans hts) nofun
  | duplicate hc hkey =>
      exact h.setCall (fun ts hts => nomatch hc.symm.trans hts) nofun
  | register hc hkey => exact h.register (by rw [hc]; exact nofun) hkey _ _ _
  | requested hc hkind hkey =>
      exact h.setCall (fun ts hts => nomatch hc.symm.trans hts) nofun
  | requestFailed error hc =>
      exact h.setCall (fun ts hts => nomatch hc.symm.trans hts) nofun
  | grantedNone hc =>
      exact (h.addGrant _ _).setCall (fun ts hts => nomatch hc.symm.trans hts) nofun
  | granted port hc hport =>
      exact (h.addGrant _ _).setCall (fun ts hts => nomatch hc.symm.trans hts) nofun
  | remoteDuplicate hc hkey =>
      exact h.setCall (fun ts hts => nomatch hc.symm.trans hts) nofun
  | registerRemote hc hkey => exact h.register (by rw [hc]; exact nofun) hkey _ _ _
  | withdrew hc =>
      exact (h.cancelRemoteForward _ _ _).setCall (fun ts hts => nomatch hc.symm.trans hts) nofun
  | @published c t address port f hc hf =>
      have hsend : Registry (s.setForward t (f.send (.active address port))) :=
        h.setForward hf rfl rfl
      exact hsend.setCall (fun ts hts => nomatch hc.symm.trans hts) nofun
  | @stop c id t hc hrule =>
      refine h.remove hc (List.filter_sublist (l := s.rules)) (fun id' t' hrule' => ?_)
        fun u hu => ⟨id, by rwa [List.mem_singleton.mp hu]⟩
      rw [List.mem_filter, List.mem_singleton, decide_eq_true_eq]
      exact ⟨fun hmem ht => hmem.2 ((h.id_eq_iff hrule' hrule).mpr ht),
        fun ht => ⟨hrule', fun hid => ht ((h.id_eq_iff hrule' hrule).mp hid)⟩⟩
  | stopAll hc =>
      refine h.remove hc (List.nil_sublist _) (fun id t hrule => ?_) fun t ht => ?_
      · exact ⟨fun hmem => (nomatch hmem), fun ht => absurd (List.mem_map_of_mem hrule) ht⟩
      · obtain ⟨⟨id, u⟩, hrule, rfl⟩ := List.mem_map.mp ht
        exact ⟨id, hrule⟩
  | cancelled hc hf => exact h.cancel hc hf
  | returned hc =>
      refine h.setCall (fun ts hts => ?_) nofun
      obtain rfl : [] = ts := by cases hc.symm.trans hts; rfl
      rfl
  | forward move hf hmove hwithdrawn hreceive =>
      obtain ⟨-, hrule, -, -, hcancelled⟩ := Forward.move_frame hmove
      exact h.setForward hf hrule hcancelled
  | forwardWithdrawn hf hmove hgrant =>
      obtain ⟨-, hrule, -, -, hcancelled⟩ := Forward.move_frame hmove
      exact (h.setForward hf hrule hcancelled).cancelRemoteForward _ _ _

/-- What every task is at first and keeps when it moves, publishes or is told to stop, it always
is. -/
theorem Step.forall_forwards {P : Forward RuleId → Prop} (hs : Step s m s')
    (hspawn : ∀ c rule port grant, P (.spawn c rule port grant))
    (hmove : ∀ f f' move, P f → f.move move = some f' → P f')
    (hsend : ∀ f address port, P f → P (f.send (.active address port)))
    (hcancel : ∀ f, P f → P { f with cancelled := true })
    (h : ∀ t f, s.forwards t = some f → P f) : ∀ t f, s'.forwards t = some f → P f := by
  have hset : ∀ {t f'}, P f' → ∀ u f, (s.setForward t f').forwards u = some f → P f := by
    intro t f' hf' u f hu
    rw [State.forwards_setForward] at hu
    split_ifs at hu with hut
    · exact Option.some.inj hu ▸ hf'
    · exact h u f hu
  cases hs with
  | register hc hkey | registerRemote hc hkey => exact hset (hspawn _ _ _ _)
  | published hc hf => exact hset (hsend _ _ _ (h _ _ hf))
  | cancelled hc hf => exact hset (hcancel _ (h _ _ hf))
  | forward move hf hm hwithdrawn hreceive => exact hset (hmove _ _ _ (h _ _ hf) hm)
  | forwardWithdrawn hf hm hgrant => exact hset (hmove _ _ _ (h _ _ hf) hm)
  | _ => exact h

theorem Step.forwards_ok (hs : Step s m s') (h : ∀ t f, s.forwards t = some f → f.Ok) :
    ∀ t f, s'.forwards t = some f → f.Ok :=
  hs.forall_forwards Forward.ok_spawn (fun _ _ _ hf hm => hf.move hm) (fun _ _ _ hf => hf.send _)
    (fun _ hf => hf.cancel) h

end Registry

/-! ### Remote forwards -/

/-- The remote forward in the hands of a call, with the address and port it is given back under. -/
def Call.lease : Call RuleId → Option (ℕ × String × ℕ)
  | granted rule grant port => some (grant, rule.bindAddress, port)
  | withdrawing grant address port _ => some (grant, address, port)
  | _ => none

section Grants

variable {s s' : State RuleId}

/-- A granted forward is given back, or in the hands of a call or a task, and no task ends with one
in its hands. -/
structure Grants (s : State RuleId) : Prop where
  carried : ∀ lease, s.grants[lease.1]? = some lease.2 →
    lease ∈ s.withdrawn ∨ (∃ c call, s.calls c = some call ∧ call.lease = some lease) ∨
      ∃ t f, s.forwards t = some f ∧ f.lease = some lease
  ended : ∀ t f lease, s.forwards t = some f → f.lease = some lease →
    f.phase = .leaving ∨ f.phase = .ended → lease ∈ s.withdrawn

/-- A call goes on, and what it had in its hands is taken care of. -/
theorem Grants.setCall (h : Grants s) {c : ℕ} {call : Call RuleId}
    (hold : ∀ old lease, s.calls c = some old → old.lease = some lease →
      lease ∈ s.withdrawn ∨ call.lease = some lease ∨
        ∃ t f, s.forwards t = some f ∧ f.lease = some lease) : Grants (s.setCall c call) := by
  have hc : (s.setCall c call).calls c = some call := by rw [State.calls_setCall, if_pos rfl]
  refine ⟨fun lease hlease => ?_, h.ended⟩
  rcases h.carried lease hlease with hdone | ⟨d, old, hd, hold'⟩ | hforward
  · exact .inl hdone
  · by_cases hdc : d = c
    · obtain rfl := hdc
      rcases hold old lease hd hold' with hdone | hcall | hforward
      · exact .inl hdone
      · exact .inr (.inl ⟨d, call, hc, hcall⟩)
      · exact .inr (.inr hforward)
    · exact .inr (.inl ⟨d, old, by rw [State.calls_setCall, if_neg hdc, hd], hold'⟩)
  · exact .inr (.inr hforward)

/-- The hands of the call were empty. -/
theorem Grants.setCall_none (h : Grants s) {c : ℕ} (call : Call RuleId)
    (hold : ∀ old, s.calls c = some old → old.lease = none) : Grants (s.setCall c call) :=
  h.setCall fun old lease hc hlease => by
    rw [hold old hc] at hlease
    cases hlease

theorem Grants.grant (h : Grants s) {c : ℕ} {call : Call RuleId} {address : String} {port : ℕ}
    (hold : ∀ old, s.calls c = some old → old.lease = none)
    (hcall : call.lease = some (s.grants.length, address, port)) :
    Grants ((s.addGrant address port).setCall c call) := by
  have hkept := h.setCall_none call hold
  refine ⟨fun lease hlease => ?_, h.ended⟩
  have hgrants : (s.grants ++ [(address, port)])[lease.1]? = some lease.2 := hlease
  by_cases hnew : lease.1 < s.grants.length
  · rw [List.getElem?_append_left hnew] at hgrants
    exact hkept.carried lease hgrants
  · rw [List.getElem?_append_right (by omega), List.getElem?_singleton] at hgrants
    split_ifs at hgrants with hindex
    have hlease' : lease = (s.grants.length, address, port) :=
      Prod.ext (by omega) (Option.some.inj hgrants).symm
    refine .inr (.inl ⟨c, call, ?_, hlease' ▸ hcall⟩)
    rw [State.calls_setCall, if_pos rfl]

theorem Grants.cancelRemoteForward (h : Grants s) (grant : ℕ) (address : String) (port : ℕ) :
    Grants (s.cancelRemoteForward grant address port) :=
  ⟨fun lease hlease => (h.carried lease hlease).imp_left (List.mem_append_left _),
    fun t f lease hf hlease hphase => List.mem_append_left _ (h.ended t f lease hf hlease hphase)⟩

/-- A task moves, and what it has in its hands stays there until it was given back. -/
theorem Grants.setForward (h : Grants s) {t : ℕ} {f f' : Forward RuleId}
    (hf : s.forwards t = some f) (hlease : f'.lease = f.lease)
    (hover : ∀ lease, f.lease = some lease → f'.phase = .leaving ∨ f'.phase = .ended →
      lease ∈ s.withdrawn) : Grants (s.setForward t f') := by
  refine ⟨fun lease hg => ?_, fun u g lease hu hg hphase => ?_⟩
  · refine (h.carried lease hg).imp_right (Or.imp_right ?_)
    rintro ⟨u, g, hu, hg⟩
    by_cases hut : u = t
    · obtain rfl := hut
      obtain rfl := Option.some.inj (hf.symm.trans hu)
      exact ⟨u, f', by rw [State.forwards_setForward, if_pos rfl], hlease.trans hg⟩
    · exact ⟨u, g, by rw [State.forwards_setForward, if_neg hut, hu], hg⟩
  · rw [State.forwards_setForward] at hu
    split_ifs at hu with hut
    · obtain rfl := Option.some.inj hu
      exact hover lease (hlease ▸ hg) hphase
    · exact h.ended u g lease hu hg hphase

theorem Grants.register (h : Grants s) (hr : Registry s) {c : ℕ}
    {rule : NormalizedPortForwardRule RuleId} {address : String} {port : ℕ} {grant : Option ℕ}
    (hold : ∀ old lease, s.calls c = some old → old.lease = some lease →
      (Forward.spawn c rule port grant).lease = some lease) :
    Grants (s.register c rule address port grant) := by
  have hforwards : ∀ u, (s.register c rule address port grant).forwards u =
      if u = s.nextTunnelId then some (.spawn c rule port grant) else s.forwards u :=
    fun u => State.forwards_setForward s.nextTunnelId u _
  have hcalls : ∀ d, (s.register c rule address port grant).calls d =
      if d = c then some (.publishing s.nextTunnelId address port) else s.calls d :=
    fun d => State.calls_setCall c d _
  refine ⟨fun lease hg => ?_, fun u f lease hu hlease hphase => ?_⟩
  · rcases h.carried lease hg with hdone | ⟨d, old, hd, hold'⟩ | ⟨u, f, hu, hf⟩
    · exact .inl hdone
    · by_cases hdc : d = c
      · obtain rfl := hdc
        exact .inr (.inr ⟨_, _, (hforwards _).trans (if_pos rfl), hold old lease hd hold'⟩)
      · exact .inr (.inl ⟨d, old, by rw [hcalls, if_neg hdc, hd], hold'⟩)
    · have hne := Nat.ne_of_lt (hr.fresh u f hu)
      exact .inr (.inr ⟨u, f, by rw [hforwards, if_neg hne, hu], hf⟩)
  · rw [hforwards] at hu
    split_ifs at hu with hnew
    · obtain rfl := Option.some.inj hu
      rcases hphase with hphase | hphase <;> cases hphase
    · exact h.ended u f lease hu hlease hphase

theorem grants_initial : Grants (State.initial : State RuleId) where
  carried _ h := nomatch h
  ended _ _ _ h := nomatch h

variable [DecidableEq RuleId] {m : Move}

theorem Grants.step (h : Grants s) (hr : Registry s) (hs : Step s m s') : Grants s' := by
  -- A call that has no remote forward in its hands.
  have hempty : ∀ {c call}, s.calls c = some call → call.lease = none →
      ∀ old, s.calls c = some old → old.lease = none := by
    intro c call hc hcall old hold
    rwa [← Option.some.inj (hc.symm.trans hold)]
  have hnone : ∀ {c}, s.calls c = none → ∀ old, s.calls c = some old → old.lease = none :=
    fun hc old hold => nomatch hc.symm.trans hold
  have hrules : ∀ rules, Grants { s with rules := rules } := fun _ => ⟨h.carried, h.ended⟩
  cases hs with
  | refused error hc => exact h.setCall_none _ (hnone hc)
  | bound address port hc hkind => exact h.setCall_none _ (hnone hc)
  | duplicate hc hkey => exact h.setCall_none _ (hempty hc rfl)
  | register hc hkey =>
      refine h.register hr fun old lease hold hlease => ?_
      rw [hempty hc rfl old hold] at hlease
      cases hlease
  | requested hc hkind hkey => exact h.setCall_none _ (hnone hc)
  | requestFailed error hc => exact h.setCall_none _ (hempty hc rfl)
  | grantedNone hc => exact h.grant (hempty hc rfl) rfl
  | granted port hc hport => exact h.grant (hempty hc rfl) rfl
  | remoteDuplicate hc hkey =>
      refine h.setCall fun old lease hold hlease => .inr (.inl ?_)
      obtain rfl := Option.some.inj (hc.symm.trans hold)
      exact hlease
  | registerRemote hc hkey =>
      refine h.register hr fun old lease hold hlease => ?_
      obtain rfl := Option.some.inj (hc.symm.trans hold)
      exact hlease
  | withdrew hc =>
      refine (h.cancelRemoteForward _ _ _).setCall fun old lease hold hlease => .inl ?_
      obtain rfl := Option.some.inj (hc.symm.trans hold)
      obtain rfl := Option.some.inj hlease
      exact List.mem_append_right _ List.mem_cons_self
  | @published c t address port f hc hf =>
      have hsend : Grants (s.setForward t (f.send (.active address port))) :=
        h.setForward hf rfl fun lease hlease hphase => h.ended t f lease hf hlease hphase
      exact hsend.setCall_none _ (hempty hc rfl)
  | stop hc hrule => exact (hrules _).setCall_none _ (hnone hc)
  | stopAll hc => exact (hrules _).setCall_none _ (hnone hc)
  | @cancelled c t ts f hc hf =>
      have hcancel : Grants (s.setForward t { f with cancelled := true }) :=
        h.setForward hf rfl fun lease hlease hphase => h.ended t f lease hf hlease hphase
      exact hcancel.setCall_none _ (hempty hc rfl)
  | returned hc => exact h.setCall_none _ (hempty hc rfl)
  | forward move hf hmove hwithdrawn hreceive =>
      exact h.setForward hf (Forward.lease_move hmove) fun lease hlease hphase =>
        h.ended _ _ lease hf hlease (Forward.move_phase hmove hwithdrawn hlease hphase)
  | forwardWithdrawn hf hmove hgrant =>
      refine (h.cancelRemoteForward _ _ _).setForward hf (Forward.lease_move hmove)
        fun lease hlease hphase => ?_
      rw [Forward.lease, hgrant, Option.map_some] at hlease
      obtain rfl := Option.some.inj hlease
      exact List.mem_append_right _ List.mem_cons_self

end Grants

end Netcatty.Ssh.PortForward
