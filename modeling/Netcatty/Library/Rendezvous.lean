import Mathlib.Logic.Function.Basic
import Netcatty.Library.Runs

/-! # Requests that wait for an answer

A request registers itself under an identifier, asks whoever listens, and waits until an answer is
given under that identifier by its owner, until its owner is rejected, or until its time is over.
It then takes itself out again.  Any number of requests, answers and rejections interleave; `Step`
takes one request to its next wait, and an answer or a rejection is one step.  What a step does to
one request is `Change` (`Step.change`), and what a request returns is what the first answer to it
was (`returned_heard`). -/

namespace Netcatty.Rendezvous

open Runs (Run)

variable {Owner Id Prompt Answer : Type}

/-- The channel through which a request gets its answer. -/
inductive Mailbox (Answer : Type)
  | vacant
  | answered (answer : Answer)
  /-- Nobody is left who could answer. -/
  | closed

def Mailbox.read (refusal : Answer) : Mailbox Answer → Answer
  | answered answer => answer
  | vacant | closed => refusal

/-- How far a request has come. -/
inductive Phase (Answer : Type)
  | starting
  /-- It is registered, and has not asked yet. -/
  | registered
  /-- Nobody listened when it asked. -/
  | unheard
  | waiting
  /-- Its time is over, and its end of the channel is still there. -/
  | expired
  /-- It is about to take itself out. -/
  | finishing (result : Answer)
  | returned (result : Answer)
  /-- It was given up from outside while it waited. -/
  | dropped

namespace Phase

/-- The end of the channel that receives is there. -/
def listening : Phase Answer → Bool
  | registered | unheard | waiting | expired => true
  | starting | finishing _ | returned _ | dropped => false

/-- An answer can still become the result. -/
def attentive : Phase Answer → Bool
  | registered | waiting => true
  | _ => false

/-- The request is at a wait, where it can be given up from outside. -/
def suspended : Phase Answer → Bool
  | starting | unheard | waiting | finishing _ => true
  | registered | expired | returned _ | dropped => false

/-- The request has registered itself and did not return. -/
def holding : Phase Answer → Bool
  | registered | unheard | waiting | expired | finishing _ | dropped => true
  | starting | returned _ => false

def ended : Phase Answer → Bool
  | returned _ | dropped => true
  | _ => false

end Phase

structure Request (Owner Id Prompt Answer : Type) where
  owner : Owner
  id : Id
  prompt : Prompt
  phase : Phase Answer
  mailbox : Mailbox Answer

/-- The end of a channel that sends, registered for the request `call`. -/
structure Entry (Owner : Type) where
  owner : Owner
  call : ℕ
  deriving DecidableEq

inductive AnswerError
  | notFound | wrongOwner | expired
  deriving DecidableEq, Repr

structure State (Owner Id Prompt Answer : Type) where
  /-- The next number for an identifier. -/
  sequence : ℕ
  pending : Id → Option (Entry Owner)
  requests : ℕ → Option (Request Owner Id Prompt Answer)
  listeners : ℕ
  prompts : List Prompt

/-- The sending end goes away. -/
def Request.close (r : Request Owner Id Prompt Answer) : Request Owner Id Prompt Answer :=
  match r.mailbox with
  | .vacant => { r with mailbox := .closed }
  | _ => r

namespace State

def initial : State Owner Id Prompt Answer where
  sequence := 1
  pending _ := none
  requests _ := none
  listeners := 0
  prompts := []

def setRequest (s : State Owner Id Prompt Answer) (c : ℕ) (r : Request Owner Id Prompt Answer) :
    State Owner Id Prompt Answer :=
  { s with requests := Function.update s.requests c (some r) }

variable [DecidableEq Id]

def setPending (s : State Owner Id Prompt Answer) (id : Id) (entry : Option (Entry Owner)) :
    State Owner Id Prompt Answer :=
  { s with pending := Function.update s.pending id entry }

/-- The entry of an identifier is removed, and what could send through it is gone. -/
def discard (s : State Owner Id Prompt Answer) (id : Id) : State Owner Id Prompt Answer :=
  match s.pending id with
  | none => s
  | some entry =>
    { s.setPending id none with
      requests := fun c =>
        if c = entry.call then (s.requests c).map Request.close else s.requests c }

/-- The request registers itself in the place of whatever was there. -/
def register (s : State Owner Id Prompt Answer) (c : ℕ) (r : Request Owner Id Prompt Answer) :
    State Owner Id Prompt Answer :=
  ((s.discard r.id).setPending r.id (some ⟨r.owner, c⟩)).setRequest c
    { r with phase := .registered }

/-- The request asks those who listen. -/
def publish (s : State Owner Id Prompt Answer) (c : ℕ) (r : Request Owner Id Prompt Answer) :
    State Owner Id Prompt Answer :=
  if s.listeners = 0 then s.setRequest c { r with phase := .unheard }
  else { s with prompts := s.prompts ++ [r.prompt] }.setRequest c { r with phase := .waiting }

/-- Sends through the channel of the request `c`. -/
def send (s : State Owner Id Prompt Answer) (c : ℕ) (answer : Answer) :
    State Owner Id Prompt Answer × Except AnswerError Unit :=
  match s.requests c with
  | none => (s, .error .expired)
  | some r =>
    if r.phase.listening then (s.setRequest c { r with mailbox := .answered answer }, .ok ())
    else (s, .error .expired)

variable [DecidableEq Owner]

def respond (s : State Owner Id Prompt Answer) (owner : Owner) (id : Id) (answer : Answer) :
    State Owner Id Prompt Answer × Except AnswerError Unit :=
  match s.pending id with
  | none => (s, .error .notFound)
  | some entry =>
    if entry.owner ≠ owner then (s, .error .wrongOwner)
    else (s.setPending id none).send entry.call answer

/-- Every request of the owner is answered with a refusal. -/
def rejectOwner (refusal : Answer) (s : State Owner Id Prompt Answer) (owner : Owner) :
    State Owner Id Prompt Answer :=
  { s with
    pending := fun id => (s.pending id).filter fun entry => entry.owner ≠ owner
    requests := fun c => (s.requests c).map fun r =>
      if s.pending r.id = some ⟨owner, c⟩ ∧ r.phase.listening = true then
        { r with mailbox := .answered refusal }
      else r }

end State

section Frames

variable [DecidableEq Id] {s : State Owner Id Prompt Answer}

omit [DecidableEq Id] in
theorem requests_setRequest (c : ℕ) (r : Request Owner Id Prompt Answer) (d : ℕ) :
    (s.setRequest c r).requests d = if d = c then some r else s.requests d :=
  Function.update_apply s.requests c (some r) d

theorem pending_setPending (id : Id) (entry : Option (Entry Owner)) (i : Id) :
    (s.setPending id entry).pending i = if i = id then entry else s.pending i :=
  Function.update_apply s.pending id entry i

theorem pending_discard (id i : Id) :
    (s.discard id).pending i = if i = id then none else s.pending i := by
  unfold State.discard
  cases h : s.pending id with
  | none =>
      split_ifs with hi
      · exact hi ▸ h
      · rfl
  | some entry => exact pending_setPending id none i

theorem requests_discard_of_other {id : Id} {c : ℕ} (h : ∀ e, s.pending id = some e → e.call ≠ c) :
    (s.discard id).requests c = s.requests c := by
  unfold State.discard
  cases hid : s.pending id with
  | none => rfl
  | some entry => exact if_neg fun hc => h entry hid hc.symm

theorem requests_discard_of_own {id : Id} {e : Entry Owner} (h : s.pending id = some e) :
    (s.discard id).requests e.call = (s.requests e.call).map Request.close := by
  unfold State.discard
  rw [h]
  exact if_pos rfl

end Frames

/-! ### Steps -/

inductive Move (Owner Id Prompt Answer : Type)
  | call (c : ℕ) (owner : Owner) (prompt : Id → Prompt)
  | register (c : ℕ)
  | publish (c : ℕ)
  | withdraw (c : ℕ)
  | receive (c : ℕ)
  | expire (c : ℕ)
  | close (c : ℕ)
  | finish (c : ℕ)
  | drop (c : ℕ)
  | respond (owner : Owner) (id : Id) (answer : Answer) (outcome : Except AnswerError Unit)
  | rejectOwner (owner : Owner)
  /-- The number of those who listen changes. -/
  | listen (listeners : ℕ)
  /-- A number is drawn elsewhere. -/
  | draw

variable [DecidableEq Owner] [DecidableEq Id]

inductive Step (requestId : ℕ → Id) (refusal : Answer) :
    State Owner Id Prompt Answer → Move Owner Id Prompt Answer → State Owner Id Prompt Answer → Prop
  | call {s c} (owner : Owner) (prompt : Id → Prompt) (h : s.requests c = none) :
      Step requestId refusal s (.call c owner prompt)
        ({ s with sequence := s.sequence + 1 }.setRequest c
          ⟨owner, requestId s.sequence, prompt (requestId s.sequence), .starting, .vacant⟩)
  | register {s c r} (h : s.requests c = some r) (hp : r.phase = .starting) :
      Step requestId refusal s (.register c) (s.register c r)
  | publish {s c r} (h : s.requests c = some r) (hp : r.phase = .registered) :
      Step requestId refusal s (.publish c) (s.publish c r)
  | withdraw {s c r} (h : s.requests c = some r) (hp : r.phase = .unheard) :
      Step requestId refusal s (.withdraw c)
        ((s.discard r.id).setRequest c { r with phase := .returned refusal })
  | receive {s c r} (h : s.requests c = some r) (hp : r.phase = .waiting)
      (hm : r.mailbox ≠ .vacant) :
      Step requestId refusal s (.receive c)
        (s.setRequest c { r with phase := .finishing (r.mailbox.read refusal) })
  /-- A wait that is over still looks for an answer first. -/
  | expire {s c r} (h : s.requests c = some r) (hp : r.phase = .waiting)
      (hm : r.mailbox = .vacant) :
      Step requestId refusal s (.expire c) (s.setRequest c { r with phase := .expired })
  | close {s c r} (h : s.requests c = some r) (hp : r.phase = .expired) :
      Step requestId refusal s (.close c) (s.setRequest c { r with phase := .finishing refusal })
  | finish {s c r result} (h : s.requests c = some r) (hp : r.phase = .finishing result) :
      Step requestId refusal s (.finish c)
        ((s.discard r.id).setRequest c { r with phase := .returned result })
  | drop {s c r} (h : s.requests c = some r) (hp : r.phase.suspended = true) :
      Step requestId refusal s (.drop c) (s.setRequest c { r with phase := .dropped })
  | respond {s} (owner : Owner) (id : Id) (answer : Answer) :
      Step requestId refusal s (.respond owner id answer (s.respond owner id answer).2)
        (s.respond owner id answer).1
  | rejectOwner {s} (owner : Owner) :
      Step requestId refusal s (.rejectOwner owner) (s.rejectOwner refusal owner)
  | listen {s} (listeners : ℕ) :
      Step requestId refusal s (.listen listeners) { s with listeners := listeners }
  | draw {s} : Step requestId refusal s .draw { s with sequence := s.sequence + 1 }

/-! ### What is registered -/

section Held

variable {requestId : ℕ → Id} {refusal : Answer} {s s' : State Owner Id Prompt Answer}
  {m : Move Owner Id Prompt Answer} {c : ℕ} {r r' : Request Owner Id Prompt Answer}

/-- An entry belongs to a request that waits for its answer, or that was dropped, and a request that
could still hear an answer has its entry. -/
structure Held (s : State Owner Id Prompt Answer) : Prop where
  entry : ∀ id e, s.pending id = some e → ∃ r, s.requests e.call = some r ∧ r.id = id ∧
    r.owner = e.owner ∧ r.mailbox = .vacant ∧ r.phase.holding = true
  vacant : ∀ c r, s.requests c = some r → r.mailbox = .vacant → r.phase.listening = true →
    s.pending r.id = some ⟨r.owner, c⟩
  starting : ∀ c r, s.requests c = some r → r.phase = .starting → r.mailbox = .vacant

omit [DecidableEq Owner] [DecidableEq Id] in
theorem held_initial : Held (State.initial : State Owner Id Prompt Answer) where
  entry _ _ h := nomatch h
  vacant _ _ h := nomatch h
  starting _ _ h := nomatch h

omit [DecidableEq Owner] [DecidableEq Id] in
theorem Held.entry_id (h : Held s) (hr : s.requests c = some r) {id : Id} {e : Entry Owner}
    (he : s.pending id = some e) (hc : e.call = c) :
    r.id = id ∧ e = ⟨r.owner, c⟩ ∧ r.mailbox = .vacant ∧ r.phase.holding = true := by
  obtain ⟨r₀, hr₀, hid, howner, hm, hp⟩ := h.entry id e he
  obtain rfl := Option.some.inj ((hc ▸ hr).symm.trans hr₀)
  refine ⟨hid, ?_, hm, hp⟩
  rw [howner, ← hc]

omit [DecidableEq Owner] [DecidableEq Id] in
theorem Held.setRequest (h : Held s)
    (hentry : ∀ id e, s.pending id = some e → e.call = c →
      r.id = id ∧ r.owner = e.owner ∧ r.mailbox = .vacant ∧ r.phase.holding = true)
    (hvacant : r.mailbox = .vacant → r.phase.listening = true →
      s.pending r.id = some ⟨r.owner, c⟩)
    (hstarting : r.phase = .starting → r.mailbox = .vacant) : Held (s.setRequest c r) := by
  refine ⟨fun id e he => ?_, fun d r₀ hd => ?_, fun d r₀ hd => ?_⟩
  · rw [requests_setRequest]
    split_ifs with hc
    · exact ⟨r, rfl, hentry id e he hc⟩
    · exact h.entry id e he
  · rw [requests_setRequest] at hd
    split_ifs at hd with hc
    · obtain rfl := Option.some.inj hd
      exact hc ▸ hvacant
    · exact h.vacant d r₀ hd
  · rw [requests_setRequest] at hd
    split_ifs at hd with hc
    · obtain rfl := Option.some.inj hd
      exact hstarting
    · exact h.starting d r₀ hd

omit [DecidableEq Owner] [DecidableEq Id] in
/-- A request that is registered, or given up, goes on. -/
theorem Held.setPhase (h : Held s) (hr : s.requests c = some r) {p : Phase Answer}
    (hholding : p.holding = true) (hlistening : p.listening = true → r.phase.listening = true) :
    Held (s.setRequest c { r with phase := p }) := by
  refine h.setRequest (fun id e he hc => ?_) (fun hm hp => h.vacant c r hr hm (hlistening hp))
    (fun hp => ?_)
  · obtain ⟨hid, rfl, hm, -⟩ := h.entry_id hr he hc
    exact ⟨hid, rfl, hm, hholding⟩
  · obtain rfl : p = .starting := hp
    cases hholding

omit [DecidableEq Owner] [DecidableEq Id] in
theorem close_vacant (h : r.mailbox = .vacant) : r.close = { r with mailbox := .closed } := by
  unfold Request.close
  rw [h]

omit [DecidableEq Owner] in
/-- What a removed entry does to a request. -/
theorem Held.requests_discard (h : Held s) (hr : s.requests c = some r) (id : Id) :
    (s.discard id).requests c = some r ∧ (∀ e, s.pending id = some e → e.call ≠ c) ∨
      (s.discard id).requests c = some { r with mailbox := .closed } ∧ r.mailbox = .vacant ∧
        r.phase.holding = true ∧ r.id = id := by
  by_cases hid : ∃ e, s.pending id = some e ∧ e.call = c
  · obtain ⟨e, he, rfl⟩ := hid
    obtain ⟨hid, -, hm, hp⟩ := h.entry_id hr he rfl
    refine .inr ⟨?_, hm, hp, hid⟩
    rw [requests_discard_of_own he, hr, Option.map_some, close_vacant hm]
  · have hother : ∀ e, s.pending id = some e → e.call ≠ c := fun e he hc => hid ⟨e, he, hc⟩
    exact .inl ⟨(requests_discard_of_other hother).trans hr, hother⟩

omit [DecidableEq Owner] in
theorem requests_discard_eq_none (id : Id) :
    (s.discard id).requests c = none ↔ s.requests c = none := by
  unfold State.discard
  cases s.pending id with
  | none => exact Iff.rfl
  | some entry =>
      show (if c = entry.call then _ else _) = none ↔ _
      split_ifs
      · exact Option.map_eq_none_iff
      · exact Iff.rfl

omit [DecidableEq Owner] in
theorem Held.exists_of_discard (h : Held s) {id : Id} (hr : (s.discard id).requests c = some r) :
    ∃ r₀, s.requests c = some r₀ ∧
      (r = r₀ ∧ (∀ e, s.pending id = some e → e.call ≠ c) ∨
        r = { r₀ with mailbox := .closed } ∧ r₀.phase.holding = true) := by
  cases hr₀ : s.requests c with
  | none => rw [(requests_discard_eq_none id).mpr hr₀] at hr; cases hr
  | some r₀ =>
      refine ⟨r₀, rfl, ?_⟩
      rcases h.requests_discard hr₀ id with ⟨hsame, hother⟩ | ⟨hclosed, -, hp, -⟩
      · exact .inl ⟨Option.some.inj (hr.symm.trans hsame), hother⟩
      · exact .inr ⟨Option.some.inj (hr.symm.trans hclosed), hp⟩

omit [DecidableEq Owner] in
theorem Held.discard (h : Held s) (id : Id) : Held (s.discard id) := by
  refine ⟨fun i e he => ?_, fun d r hd hm hp => ?_, fun d r hd hp => ?_⟩
  · rw [pending_discard] at he
    split_ifs at he with hi
    obtain ⟨r, hr, hid, hrest⟩ := h.entry i e he
    rcases h.requests_discard hr id with ⟨hsame, -⟩ | ⟨-, -, -, hid'⟩
    · exact ⟨r, hsame, hid, hrest⟩
    · exact absurd (hid.symm.trans hid') hi
  · obtain ⟨r₀, hr₀, ⟨rfl, hother⟩ | ⟨rfl, -⟩⟩ := h.exists_of_discard hd
    · have hown := h.vacant d r hr₀ hm hp
      rw [pending_discard, if_neg]
      · exact hown
      · exact fun hid => hother _ (hid ▸ hown) rfl
    · cases hm
  · obtain ⟨r₀, hr₀, ⟨rfl, -⟩ | ⟨rfl, hholding⟩⟩ := h.exists_of_discard hd
    · exact h.starting d r hr₀ hp
    · obtain hp : r₀.phase = .starting := hp
      rw [hp] at hholding
      cases hholding

omit [DecidableEq Owner] in
/-- A request that takes itself out leaves nothing behind. -/
theorem Held.leave (h : Held s) (hr : s.requests c = some r) (result : Answer) :
    Held ((s.discard r.id).setRequest c { r with phase := .returned result }) := by
  refine (h.discard r.id).setRequest (fun id e he hc => ?_) (fun _ hp => nomatch hp)
    (fun hp => nomatch hp)
  rw [pending_discard] at he
  split_ifs at he with hid
  exact absurd (h.entry_id hr he hc).1.symm hid

omit [DecidableEq Owner] in
theorem Held.register (h : Held s) (hr : s.requests c = some r) (hp : r.phase = .starting) :
    Held (s.register c r) := by
  have hpending : ∀ i, (s.register c r).pending i =
      if i = r.id then some ⟨r.owner, c⟩ else s.pending i := by
    intro i
    refine (pending_setPending r.id _ i).trans ?_
    split_ifs with hi
    · rfl
    · rw [pending_discard, if_neg hi]
  have hrequests : ∀ d, (s.register c r).requests d =
      if d = c then some { r with phase := .registered } else (s.discard r.id).requests d :=
    fun d => requests_setRequest c _ d
  have hd := h.discard r.id
  refine ⟨fun id e he => ?_, fun d r₀ hr₀ hm hl => ?_, fun d r₀ hr₀ hs => ?_⟩
  · rw [hpending] at he
    split_ifs at he with hid
    · obtain rfl := Option.some.inj he
      exact ⟨_, (hrequests c).trans (if_pos rfl), hid.symm, rfl, h.starting c r hr hp, rfl⟩
    · have he' : (s.discard r.id).pending id = some e := by rw [pending_discard, if_neg hid, he]
      obtain ⟨r₀, hr₀, hrest⟩ := hd.entry id e he'
      refine ⟨r₀, ?_, hrest⟩
      rw [hrequests, if_neg]
      · exact hr₀
      · intro hc
        have hholding := (h.entry_id hr he hc).2.2.2
        rw [hp] at hholding
        cases hholding
  · rw [hrequests] at hr₀
    split_ifs at hr₀ with hc
    · obtain rfl := Option.some.inj hr₀
      rw [hpending, if_pos rfl, hc]
    · have hown := hd.vacant d r₀ hr₀ hm hl
      rw [pending_discard] at hown
      split_ifs at hown with hid
      rw [hpending, if_neg hid]
      exact hown
  · rw [hrequests] at hr₀
    split_ifs at hr₀ with hc
    · obtain rfl := Option.some.inj hr₀
      cases hs
    · exact hd.starting d r₀ hr₀ hs

omit [DecidableEq Owner] [DecidableEq Id] in
theorem Held.publish (h : Held s) (hr : s.requests c = some r) (hp : r.phase = .registered) :
    Held (s.publish c r) := by
  unfold State.publish
  split_ifs
  · exact h.setPhase hr rfl fun _ => by rw [hp]; rfl
  · have h' : Held { s with prompts := s.prompts ++ [r.prompt] } := ⟨h.entry, h.vacant, h.starting⟩
    exact h'.setPhase hr rfl fun _ => by rw [hp]; rfl

/-- What an answer does: nothing, or it removes an entry whose request can hear nothing any more, or
it reaches the request of an entry. -/
theorem Held.respond_cases (h : Held s) (owner : Owner) (id : Id) (answer : Answer) :
    s.respond owner id answer = (s, .error .notFound) ∧ s.pending id = none ∨
    s.respond owner id answer = (s, .error .wrongOwner) ∧
      (∃ e, s.pending id = some e ∧ e.owner ≠ owner) ∨
    ∃ c r, s.pending id = some ⟨owner, c⟩ ∧ s.requests c = some r ∧ r.id = id ∧
      r.owner = owner ∧ r.mailbox = .vacant ∧
      (r.phase.listening = false ∧
          s.respond owner id answer = (s.setPending id none, .error .expired) ∨
        r.phase.listening = true ∧ s.respond owner id answer =
          ((s.setPending id none).setRequest c { r with mailbox := .answered answer },
            .ok ())) := by
  unfold State.respond
  cases he : s.pending id with
  | none => exact .inl ⟨rfl, rfl⟩
  | some e =>
      by_cases howner : e.owner ≠ owner
      · exact .inr (.inl ⟨if_pos howner, e, rfl, howner⟩)
      obtain rfl := not_not.mp howner
      obtain ⟨r, hr, hid, hro, hm, -⟩ := h.entry id e he
      refine .inr (.inr ⟨e.call, r, rfl, hr, hid, hro, hm, ?_⟩)
      simp only [if_neg howner, State.send]
      rw [show (s.setPending id none).requests e.call = some r from hr]
      cases hl : r.phase.listening with
      | false => exact .inl ⟨rfl, by simp [hl]⟩
      | true => exact .inr ⟨rfl, by simp [hl]⟩

theorem Held.respond (h : Held s) (owner : Owner) (id : Id) (answer : Answer) :
    Held (s.respond owner id answer).1 := by
  rcases h.respond_cases owner id answer with
    ⟨hs, -⟩ | ⟨hs, -⟩ | ⟨c, r, he, hr, hid, howner, hm, ⟨hl, hs⟩ | ⟨hl, hs⟩⟩
  · rw [hs]; exact h
  · rw [hs]; exact h
  · rw [hs]
    refine ⟨fun i e hi => ?_, fun d r₀ hd hm₀ hl₀ => ?_, h.starting⟩
    · simp only [pending_setPending] at hi
      split_ifs at hi
      exact h.entry i e hi
    · have hown := h.vacant d r₀ hd hm₀ hl₀
      simp only [pending_setPending]
      rw [if_neg]
      · exact hown
      · intro hi
        rw [hi, he] at hown
        obtain rfl := congrArg Entry.call (Option.some.inj hown)
        obtain rfl := Option.some.inj (hr.symm.trans hd)
        rw [hl] at hl₀
        cases hl₀
  · rw [hs]
    refine ⟨fun i e hi => ?_, fun d r₀ hd hm₀ hl₀ => ?_, fun d r₀ hd hp => ?_⟩
    · replace hi : (s.setPending id none).pending i = some e := hi
      rw [pending_setPending] at hi
      split_ifs at hi with hne
      obtain ⟨r₀, hr₀, hid₀, hrest⟩ := h.entry i e hi
      refine ⟨r₀, ?_, hid₀, hrest⟩
      rw [requests_setRequest, if_neg]
      · exact hr₀
      · intro hc
        exact hne ((h.entry_id hr hi hc).1.symm.trans hid)
    · rw [requests_setRequest] at hd
      split_ifs at hd with hc
      · obtain rfl := Option.some.inj hd
        cases hm₀
      · have hown := h.vacant d r₀ hd hm₀ hl₀
        show (s.setPending id none).pending r₀.id = _
        rw [pending_setPending, if_neg]
        · exact hown
        · intro hi
          rw [hi, he] at hown
          exact hc (congrArg Entry.call (Option.some.inj hown)).symm
    · rw [requests_setRequest] at hd
      split_ifs at hd with hc
      · obtain rfl := Option.some.inj hd
        obtain hp : r.phase = .starting := hp
        rw [hp] at hl
        cases hl
      · exact h.starting d r₀ hd hp

omit [DecidableEq Id] in
/-- What a rejection does to a request. -/
theorem requests_rejectOwner (owner : Owner) (hr : s.requests c = some r) :
    (s.rejectOwner refusal owner).requests c =
      some (if s.pending r.id = some ⟨owner, c⟩ ∧ r.phase.listening = true then
        { r with mailbox := .answered refusal } else r) := by
  show (s.requests c).map _ = _
  rw [hr]
  rfl

omit [DecidableEq Id] in
theorem pending_rejectOwner (owner : Owner) (id : Id) (e : Entry Owner) :
    (s.rejectOwner refusal owner).pending id = some e ↔
      s.pending id = some e ∧ e.owner ≠ owner := by
  show (s.pending id).filter _ = some e ↔ _
  rw [Option.filter_eq_some_iff]
  simp

omit [DecidableEq Id] in
theorem Held.rejectOwner (h : Held s) (owner : Owner) : Held (s.rejectOwner refusal owner) := by
  -- A request comes from one of before, which is answered exactly if its entry is removed.
  have hback : ∀ d r', (s.rejectOwner refusal owner).requests d = some r' →
      ∃ r, s.requests d = some r ∧ r' = if s.pending r.id = some ⟨owner, d⟩ ∧
        r.phase.listening = true then { r with mailbox := .answered refusal } else r := by
    intro d r' hd
    cases hr : s.requests d with
    | none =>
        rw [show (s.rejectOwner refusal owner).requests d = none from
          Option.map_eq_none_iff.mpr hr] at hd
        cases hd
    | some r => exact ⟨r, rfl, Option.some.inj (hd.symm.trans (requests_rejectOwner owner hr))⟩
  refine ⟨fun id e he => ?_, fun d r' hd hm hl => ?_, fun d r' hd hp => ?_⟩
  · obtain ⟨he, howner⟩ := (pending_rejectOwner owner id e).mp he
    obtain ⟨r, hr, hid, hro, hrest⟩ := h.entry id e he
    refine ⟨r, ?_, hid, hro, hrest⟩
    rw [requests_rejectOwner owner hr, if_neg]
    rintro ⟨hown, -⟩
    rw [hid, he] at hown
    exact howner (congrArg Entry.owner (Option.some.inj hown))
  · obtain ⟨r, hr, rfl⟩ := hback d r' hd
    split_ifs at hm hl ⊢ with hown
    have hpending := h.vacant d r hr hm hl
    refine (pending_rejectOwner owner r.id _).mpr ⟨hpending, fun howner => hown ⟨?_, hl⟩⟩
    rw [hpending]
    exact congrArg (fun o => some (Entry.mk o d)) howner
  · obtain ⟨r, hr, rfl⟩ := hback d r' hd
    split_ifs at hp ⊢ with hown
    · obtain hp : r.phase = .starting := hp
      rw [hp] at hown
      cases hown.2
    · exact h.starting d r hr hp

theorem Held.step (h : Held s) (hs : Step requestId refusal s m s') : Held s' := by
  cases hs with
  | @call c owner prompt hc =>
      have h' : Held { s with sequence := s.sequence + 1 } := ⟨h.entry, h.vacant, h.starting⟩
      refine h'.setRequest (fun id e he hec => ?_) (fun _ hl => nomatch hl) (fun _ => rfl)
      obtain ⟨r, hr, -⟩ := h.entry id e he
      rw [hec, hc] at hr
      cases hr
  | register hr hp => exact h.register hr hp
  | publish hr hp => exact h.publish hr hp
  | withdraw hr hp => exact h.leave hr refusal
  | receive hr hp hm => exact h.setPhase hr rfl (fun hl => nomatch hl)
  | expire hr hp hm => exact h.setPhase hr rfl fun _ => by rw [hp]; rfl
  | close hr hp => exact h.setPhase hr rfl (fun hl => nomatch hl)
  | finish hr hp => exact h.leave hr _
  | drop hr hp => exact h.setPhase hr rfl (fun hl => nomatch hl)
  | respond owner id answer => exact h.respond owner id answer
  | rejectOwner owner => exact h.rejectOwner owner
  | listen n => exact ⟨h.entry, h.vacant, h.starting⟩
  | draw => exact ⟨h.entry, h.vacant, h.starting⟩

/-! ### What a step does to one request -/

/-- How a request comes from one phase to the next. -/
inductive Goes (refusal : Answer) (mailbox : Mailbox Answer) : Phase Answer → Phase Answer → Prop
  | register : Goes refusal mailbox .starting .registered
  | unheard : Goes refusal mailbox .registered .unheard
  | ask : Goes refusal mailbox .registered .waiting
  | withdraw : Goes refusal mailbox .unheard (.returned refusal)
  | receive : Goes refusal mailbox .waiting (.finishing (mailbox.read refusal))
  | expire : Goes refusal mailbox .waiting .expired
  | close : Goes refusal mailbox .expired (.finishing refusal)
  | finish (result : Answer) : Goes refusal mailbox (.finishing result) (.returned result)

theorem not_goes_dropped {mailbox : Mailbox Answer} {p : Phase Answer} :
    ¬Goes refusal mailbox p .dropped := nofun

inductive Change (refusal : Answer) (s : State Owner Id Prompt Answer) (c : ℕ)
    (r : Request Owner Id Prompt Answer) :
    Move Owner Id Prompt Answer → Request Owner Id Prompt Answer → Prop
  | same (m : Move Owner Id Prompt Answer) : Change refusal s c r m r
  | closed (m : Move Owner Id Prompt Answer) (hm : r.mailbox = .vacant) :
      Change refusal s c r m { r with mailbox := .closed }
  | heard (answer : Answer) (he : s.pending r.id = some ⟨r.owner, c⟩) (hm : r.mailbox = .vacant)
      (hl : r.phase.listening = true) :
      Change refusal s c r (.respond r.owner r.id answer (.ok ()))
        { r with mailbox := .answered answer }
  | rejected : Change refusal s c r (.rejectOwner r.owner) { r with mailbox := .answered refusal }
  | moved (m : Move Owner Id Prompt Answer) {p : Phase Answer}
      (hg : Goes refusal r.mailbox r.phase p) :
      Change refusal s c r m { r with phase := p }
  | dropped : Change refusal s c r (.drop c) { r with phase := .dropped }

omit [DecidableEq Owner] [DecidableEq Id] in
theorem Change.owner (h : Change refusal s c r m r') : r'.owner = r.owner := by cases h <;> rfl

omit [DecidableEq Owner] in
theorem Held.change_discard (h : Held s) (hr : s.requests c = some r) (id : Id) :
    ∃ r', (s.discard id).requests c = some r' ∧ Change refusal s c r m r' := by
  obtain ⟨hsame, -⟩ | ⟨hclosed, hm, -⟩ := h.requests_discard hr id
  · exact ⟨r, hsame, .same m⟩
  · exact ⟨_, hclosed, .closed m hm⟩

omit [DecidableEq Owner] [DecidableEq Id] in
theorem change_setRequest {t : State Owner Id Prompt Answer} {d : ℕ}
    {own : Request Owner Id Prompt Answer} {p : Phase Answer} (hr : s.requests c = some r)
    (ht : ∃ r', t.requests c = some r' ∧ Change refusal s c r m r') (hown : s.requests d = some own)
    (hg : Goes refusal own.mailbox own.phase p) :
    ∃ r', (t.setRequest d { own with phase := p }).requests c = some r' ∧
      Change refusal s c r m r' := by
  rw [requests_setRequest]
  split_ifs with hc
  · subst hc
    obtain rfl := Option.some.inj (hr.symm.trans hown)
    exact ⟨_, rfl, .moved m hg⟩
  · exact ht

/-- **What a step does to a request that is there.** -/
theorem Step.change (h : Held s) (hs : Step requestId refusal s m s') (hr : s.requests c = some r) :
    ∃ r', s'.requests c = some r' ∧ Change refusal s c r m r' := by
  have hsame : ∃ r', s.requests c = some r' ∧ Change refusal s c r m r' := ⟨r, hr, .same m⟩
  cases hs with
  | @call d owner prompt hd =>
      refine ⟨r, ?_, .same _⟩
      rw [requests_setRequest, if_neg]
      · exact hr
      · rintro rfl
        rw [hr] at hd
        cases hd
  | @register d own hown hp =>
      exact change_setRequest hr (h.change_discard hr own.id) hown (hp ▸ .register)
  | @publish d own hown hp =>
      unfold State.publish
      split_ifs
      · exact change_setRequest hr hsame hown (hp ▸ .unheard)
      · exact change_setRequest hr hsame hown (hp ▸ .ask)
  | @withdraw d own hown hp =>
      exact change_setRequest hr (h.change_discard hr own.id) hown (hp ▸ .withdraw)
  | @receive d own hown hp hm => exact change_setRequest hr hsame hown (hp ▸ .receive)
  | @expire d own hown hp hm => exact change_setRequest hr hsame hown (hp ▸ .expire)
  | @close d own hown hp => exact change_setRequest hr hsame hown (hp ▸ .close)
  | @finish d own result hown hp =>
      exact change_setRequest hr (h.change_discard hr own.id) hown (hp ▸ .finish result)
  | @drop d own hown hp =>
      rw [requests_setRequest]
      split_ifs with hc
      · subst hc
        obtain rfl := Option.some.inj (hr.symm.trans hown)
        exact ⟨_, rfl, .dropped⟩
      · exact hsame
  | respond owner id answer =>
      obtain ⟨heq, -⟩ | ⟨heq, -⟩ | ⟨d, own, he, hown, rfl, rfl, hm, ⟨hl, heq⟩ | ⟨hl, heq⟩⟩ :=
        h.respond_cases owner id answer
      · rw [heq]
        exact ⟨r, hr, .same _⟩
      · rw [heq]
        exact ⟨r, hr, .same _⟩
      · rw [heq]
        exact ⟨r, hr, .same _⟩
      · rw [heq]
        by_cases hc : c = d
        · subst hc
          obtain rfl := Option.some.inj (hr.symm.trans hown)
          exact ⟨_, (requests_setRequest c _ c).trans (if_pos rfl), .heard answer he hm hl⟩
        · exact ⟨r, (requests_setRequest d _ c).trans ((if_neg hc).trans hr), .same _⟩
  | rejectOwner owner =>
      rw [requests_rejectOwner owner hr]
      split_ifs with hown
      · obtain ⟨-, heq, -⟩ := h.entry_id hr hown.1 rfl
        obtain rfl : owner = r.owner := congrArg Entry.owner heq
        exact ⟨_, rfl, .rejected⟩
      · exact ⟨r, rfl, .same _⟩
  | listen n => exact hsame
  | draw => exact hsame

/-- A request that was not there has just been called. -/
theorem Step.called (hs : Step requestId refusal s m s') (hr : s'.requests c = some r)
    (hnone : s.requests c = none) : r.phase = .starting ∧ r.mailbox = .vacant := by
  -- Every other step leaves what was not there as it was.
  have hset : ∀ {t : State Owner Id Prompt Answer} {d : ℕ}
      {own new : Request Owner Id Prompt Answer}, s.requests d = some own → t.requests c = none →
        (t.setRequest d new).requests c = none := by
    intro t d own new hown ht
    rw [requests_setRequest, if_neg]
    · exact ht
    · rintro rfl
      rw [hnone] at hown
      cases hown
  have hdiscard := fun id => (requests_discard_eq_none (s := s) (c := c) id).mpr hnone
  cases hs with
  | @call d owner prompt hd =>
      rw [requests_setRequest] at hr
      split_ifs at hr with hc
      · cases hr
        exact ⟨rfl, rfl⟩
      · exact absurd (hr.symm.trans hnone) nofun
  | @register d own hown hp => exact absurd (hr.symm.trans (hset hown (hdiscard _))) nofun
  | @publish d own hown hp =>
      unfold State.publish at hr
      split_ifs at hr
      · exact absurd (hr.symm.trans (hset hown hnone)) nofun
      · exact absurd (hr.symm.trans (hset hown hnone)) nofun
  | @withdraw d own hown hp => exact absurd (hr.symm.trans (hset hown (hdiscard _))) nofun
  | @receive d own hown hp hm => exact absurd (hr.symm.trans (hset hown hnone)) nofun
  | @expire d own hown hp hm => exact absurd (hr.symm.trans (hset hown hnone)) nofun
  | @close d own hown hp => exact absurd (hr.symm.trans (hset hown hnone)) nofun
  | @finish d own result hown hp => exact absurd (hr.symm.trans (hset hown (hdiscard _))) nofun
  | @drop d own hown hp => exact absurd (hr.symm.trans (hset hown hnone)) nofun
  | respond owner id answer =>
      have hkept : (s.respond owner id answer).1.requests c = none := by
        unfold State.respond
        cases he : s.pending id with
        | none => exact hnone
        | some e =>
            dsimp only
            split_ifs
            · exact hnone
            · unfold State.send
              cases hown : (s.setPending id none).requests e.call with
              | none => exact hnone
              | some own =>
                  dsimp only
                  split_ifs
                  · exact hset hown hnone
                  · exact hnone
      exact absurd (hr.symm.trans hkept) nofun
  | rejectOwner owner =>
      exact absurd (hr.symm.trans (Option.map_eq_none_iff.mpr hnone)) nofun
  | listen n => exact absurd (hr.symm.trans hnone) nofun
  | draw => exact absurd (hr.symm.trans hnone) nofun

/-! ### What a request was told -/

/-- An answer of the owner reached the request under its identifier, in a state in which it still
waited for one: nothing had answered or rejected it, and its time was not over. -/
def Heard (requestId : ℕ → Id) (refusal : Answer) (ms : List (Move Owner Id Prompt Answer)) (c : ℕ)
    (owner : Owner) (id : Id) (answer : Answer) : Prop :=
  ∃ before after t r, ms = before ++ .respond owner id answer (.ok ()) :: after ∧
    Run (Step requestId refusal) State.initial before t ∧ t.requests c = some r ∧
      r.owner = owner ∧ r.id = id ∧ t.pending id = some ⟨owner, c⟩ ∧ r.mailbox = .vacant ∧
        r.phase.attentive = true

theorem Heard.snoc {ms : List (Move Owner Id Prompt Answer)} {owner : Owner} {id : Id}
    {answer : Answer} (h : Heard requestId refusal ms c owner id answer)
    (m : Move Owner Id Prompt Answer) : Heard requestId refusal (ms ++ [m]) c owner id answer := by
  obtain ⟨before, after, t, r, rfl, hrest⟩ := h
  exact ⟨before, after ++ [m], t, r, by rw [List.append_assoc, List.cons_append], hrest⟩

/-- What a request holds or returns is a refusal, or what it was told. -/
structure Told (requestId : ℕ → Id) (refusal : Answer) (ms : List (Move Owner Id Prompt Answer))
    (s : State Owner Id Prompt Answer) : Prop where
  holds : ∀ c r answer, s.requests c = some r → r.phase.attentive = true →
    r.mailbox = .answered answer →
      answer = refusal ∨ Heard requestId refusal ms c r.owner r.id answer
  returns : ∀ c r answer, s.requests c = some r →
    r.phase = .finishing answer ∨ r.phase = .returned answer →
      answer = refusal ∨ Heard requestId refusal ms c r.owner r.id answer

theorem Told.step {ms : List (Move Owner Id Prompt Answer)} (ht : Told requestId refusal ms s)
    (h : Held s) (hrun : Run (Step requestId refusal) State.initial ms s)
    (hs : Step requestId refusal s m s') : Told requestId refusal (ms ++ [m]) s' := by
  have hsnoc : ∀ {c : ℕ} {r : Request Owner Id Prompt Answer} {answer : Answer},
      (answer = refusal ∨ Heard requestId refusal ms c r.owner r.id answer) →
        answer = refusal ∨ Heard requestId refusal (ms ++ [m]) c r.owner r.id answer :=
    fun hor => hor.imp_right fun hheard => hheard.snoc m
  refine ⟨fun c r' answer hr' hattentive hm => ?_, fun c r' answer hr' hp => ?_⟩
  · cases hr : s.requests c with
    | none =>
        rw [(hs.called hr' hr).2] at hm
        cases hm
    | some r =>
        obtain ⟨r'', hr'', hchange⟩ := hs.change h hr
        obtain rfl := Option.some.inj (hr''.symm.trans hr')
        cases hchange with
        | same => exact hsnoc (ht.holds c r answer hr hattentive hm)
        | closed => cases hm
        | heard told he hvacant hl =>
            obtain rfl := (Mailbox.answered.inj hm)
            exact .inr ⟨ms, [], s, r, rfl, hrun, hr, rfl, rfl, he, hvacant, hattentive⟩
        | rejected => exact .inl (Mailbox.answered.inj hm).symm
        | dropped => cases hattentive
        | moved _ hg =>
            cases hphase : r.phase with
            | starting =>
                have hvacant := h.starting c r hr hphase
                rw [show r.mailbox = .answered answer from hm] at hvacant
                cases hvacant
            | registered => exact hsnoc (ht.holds c r answer hr (by rw [hphase]; rfl) hm)
            | waiting => exact hsnoc (ht.holds c r answer hr (by rw [hphase]; rfl) hm)
            | unheard => rw [hphase] at hg; cases hg; cases hattentive
            | expired => rw [hphase] at hg; cases hg; cases hattentive
            | finishing => rw [hphase] at hg; cases hg; cases hattentive
            | returned => rw [hphase] at hg; cases hg
            | dropped => rw [hphase] at hg; cases hg
  · cases hr : s.requests c with
    | none =>
        rw [(hs.called hr' hr).1] at hp
        obtain hp | hp := hp <;> cases hp
    | some r =>
        obtain ⟨r'', hr'', hchange⟩ := hs.change h hr
        obtain rfl := Option.some.inj (hr''.symm.trans hr')
        cases hchange with
        | same => exact hsnoc (ht.returns c r answer hr hp)
        | closed => exact hsnoc (ht.returns c r answer hr hp)
        | heard told he hvacant hl => exact hsnoc (ht.returns c r answer hr hp)
        | rejected => exact hsnoc (ht.returns c r answer hr hp)
        | dropped => obtain hp | hp := hp <;> cases hp
        | @moved _ p hg =>
            replace hp : p = .finishing answer ∨ p = .returned answer := hp
            cases hphase : r.phase with
            | starting => rw [hphase] at hg; cases hg; obtain hp | hp := hp <;> cases hp
            | registered => rw [hphase] at hg; cases hg <;> obtain hp | hp := hp <;> cases hp
            | unheard =>
                rw [hphase] at hg
                cases hg
                obtain hp | hp := hp <;> cases hp
                exact .inl rfl
            | waiting =>
                rw [hphase] at hg
                cases hg with
                | expire => obtain hp | hp := hp <;> cases hp
                | receive =>
                    obtain hp | hp := hp
                    · cases hm : r.mailbox with
                      | vacant => rw [hm] at hp; cases hp; exact .inl rfl
                      | closed => rw [hm] at hp; cases hp; exact .inl rfl
                      | answered told =>
                          rw [hm] at hp
                          cases hp
                          exact hsnoc (ht.holds c r _ hr (by rw [hphase]; rfl) hm)
                    · cases hp
            | expired =>
                rw [hphase] at hg
                cases hg
                obtain hp | hp := hp <;> cases hp
                exact .inl rfl
            | finishing result =>
                rw [hphase] at hg
                cases hg
                obtain hp | hp := hp <;> cases hp
                exact hsnoc (ht.returns c r _ hr (.inl hphase))
            | returned => rw [hphase] at hg; cases hg
            | dropped => rw [hphase] at hg; cases hg

theorem held_run {ms : List (Move Owner Id Prompt Answer)}
    (hrun : Run (Step requestId refusal) State.initial ms s) : Held s :=
  hrun.invariant held_initial fun _ _ _ ht hs => ht.step hs

theorem told_run {ms : List (Move Owner Id Prompt Answer)}
    (hrun : Run (Step requestId refusal) State.initial ms s) : Told requestId refusal ms s := by
  induction hrun with
  | refl => exact ⟨nofun, nofun⟩
  | snoc hrun hs ih => exact ih.step (held_run hrun) hrun hs

/-- **What a request returns is a refusal, or the first answer to it.** -/
theorem returned_heard {ms : List (Move Owner Id Prompt Answer)} {answer : Answer}
    (hrun : Run (Step requestId refusal) State.initial ms s) (hr : s.requests c = some r)
    (hp : r.phase = .returned answer) (hne : answer ≠ refusal) :
    Heard requestId refusal ms c r.owner r.id answer :=
  ((told_run hrun).returns c r answer hr (.inr hp)).resolve_left hne

/-- **An answer that is taken reaches exactly one request**, of that owner and identifier. -/
theorem respond_delivers {owner : Owner} {id : Id} {answer : Answer} (h : Held s)
    (hs : Step requestId refusal s (.respond owner id answer (.ok ())) s') :
    ∃! c, ∃ r, s.requests c = some r ∧ r.owner = owner ∧ r.id = id ∧ r.mailbox = .vacant ∧
      s'.requests = Function.update s.requests c (some { r with mailbox := .answered answer }) := by
  generalize hmove : Move.respond owner id answer (.ok ()) = m at hs
  cases hs with
  | respond owner' id' answer' =>
      injection hmove with howner hid hanswer houtcome
      subst howner hid hanswer
      obtain ⟨heq, -⟩ | ⟨heq, -⟩ | ⟨c, r, he, hr, hid, howner, hm, ⟨hl, heq⟩ | ⟨hl, heq⟩⟩ :=
        h.respond_cases owner id answer
      · rw [heq] at houtcome
        cases houtcome
      · rw [heq] at houtcome
        cases houtcome
      · rw [heq] at houtcome
        cases houtcome
      · rw [heq]
        refine ⟨c, ⟨r, hr, howner, hid, hm, rfl⟩, ?_⟩
        rintro d ⟨r₀, hr₀, -, -, hm₀, hupdate⟩
        by_contra hne
        have hat := congrFun hupdate d
        change Function.update s.requests c _ d = _ at hat
        rw [Function.update_of_ne hne, Function.update_self, hr₀] at hat
        have hanswered := congrArg Request.mailbox (Option.some.inj hat)
        rw [hm₀] at hanswered
        cases hanswered
  | _ => cases hmove

/-! ### What is left behind -/

/-- An entry that a step leaves was there, or its request has just registered itself. -/
theorem Step.pending (hs : Step requestId refusal s m s') {id : Id} {e : Entry Owner}
    (he : s'.pending id = some e) :
    s.pending id = some e ∨ ∃ r, s'.requests e.call = some r ∧ r.phase = .registered := by
  have hdiscard : ∀ {i : Id}, (s.discard i).pending id = some e → s.pending id = some e := by
    intro i hi
    rw [pending_discard] at hi
    split_ifs at hi
    exact hi
  cases hs with
  | @register d own hown hp =>
      change ((s.discard own.id).setPending own.id (some ⟨own.owner, d⟩)).pending id = some e at he
      rw [pending_setPending] at he
      split_ifs at he with hid
      · cases he
        exact .inr ⟨_, (requests_setRequest d _ d).trans (if_pos rfl), rfl⟩
      · exact .inl (hdiscard he)
  | publish hown hp =>
      unfold State.publish at he
      split_ifs at he
      · exact .inl he
      · exact .inl he
  | withdraw hown hp => exact .inl (hdiscard he)
  | finish hown hp => exact .inl (hdiscard he)
  | respond owner i answer =>
      refine .inl ?_
      unfold State.respond at he
      cases hi : s.pending i with
      | none =>
          rw [hi] at he
          exact he
      | some entry =>
          rw [hi] at he
          dsimp only at he
          have hkept : ((s.setPending i none).send entry.call answer).1.pending id =
              (s.setPending i none).pending id := by
            unfold State.send
            split
            · rfl
            · split_ifs
              · rfl
              · rfl
          split_ifs at he
          · exact he
          · rw [hkept, pending_setPending] at he
            split_ifs at he
            exact he
  | rejectOwner owner => exact .inl ((pending_rejectOwner owner id e).mp he).1
  | call owner prompt h => exact .inl he
  | receive h hp hm => exact .inl he
  | expire h hp hm => exact .inl he
  | close h hp => exact .inl he
  | drop h hp => exact .inl he
  | listen n => exact .inl he
  | draw => exact .inl he

/-- No request is given up whose entry is there. -/
def Careful (s : State Owner Id Prompt Answer) : Move Owner Id Prompt Answer → Prop
  | .drop c => ∀ r, s.requests c = some r → s.pending r.id ≠ some ⟨r.owner, c⟩
  | _ => True

def CarefulStep (requestId : ℕ → Id) (refusal : Answer) (s : State Owner Id Prompt Answer)
    (m : Move Owner Id Prompt Answer) (s' : State Owner Id Prompt Answer) : Prop :=
  Careful s m ∧ Step requestId refusal s m s'

/-- No entry belongs to a request that was given up. -/
def Kept (s : State Owner Id Prompt Answer) : Prop :=
  ∀ id e r, s.pending id = some e → s.requests e.call = some r → r.phase ≠ .dropped

theorem Kept.step (hk : Kept s) (h : Held s) (hs : CarefulStep requestId refusal s m s') :
    Kept s' := by
  intro id e r' he hr' hp
  obtain he | ⟨r, hr, hregistered⟩ := hs.2.pending he
  · obtain ⟨r, hr, hid, howner, -⟩ := h.entry id e he
    obtain ⟨r'', hr'', hchange⟩ := hs.2.change h hr
    obtain rfl := Option.some.inj (hr''.symm.trans hr')
    have hkept := hk id e r he hr
    cases hchange with
    | same => exact hkept hp
    | closed => exact hkept hp
    | heard => exact hkept hp
    | rejected => exact hkept hp
    | @moved _ p hg =>
        replace hp : p = .dropped := hp
        rw [hp] at hg
        exact not_goes_dropped hg
    | dropped =>
        refine hs.1 r hr ?_
        rw [hid, he, howner]
  · obtain rfl := Option.some.inj (hr.symm.trans hr')
    rw [hregistered] at hp
    cases hp

theorem kept_run {ms : List (Move Owner Id Prompt Answer)}
    (hrun : Run (CarefulStep requestId refusal) State.initial ms s) : Held s ∧ Kept s :=
  hrun.invariant (I := fun s => Held s ∧ Kept s) ⟨held_initial, nofun⟩
    fun _ _ _ ht hs => ⟨ht.1.step hs.2, ht.2.step ht.1 hs⟩

omit [DecidableEq Owner] [DecidableEq Id] in
/-- What is registered when every request has ended belongs to requests that were given up. -/
theorem Held.dropped_of_ended (h : Held s)
    (hended : ∀ c r, s.requests c = some r → r.phase.ended = true) {id : Id} {e : Entry Owner}
    (he : s.pending id = some e) : ∃ r, s.requests e.call = some r ∧ r.phase = .dropped := by
  obtain ⟨r, hr, -, -, -, hholding⟩ := h.entry id e he
  have hend := hended e.call r hr
  refine ⟨r, hr, ?_⟩
  cases hp : r.phase with
  | dropped => rfl
  | returned => rw [hp] at hholding; cases hholding
  | starting => rw [hp] at hend; cases hend
  | registered => rw [hp] at hend; cases hend
  | unheard => rw [hp] at hend; cases hend
  | waiting => rw [hp] at hend; cases hend
  | expired => rw [hp] at hend; cases hend
  | finishing => rw [hp] at hend; cases hend

/-- **Nothing is left behind** in a careful run whose requests have all ended. -/
theorem pending_eq_none {ms : List (Move Owner Id Prompt Answer)}
    (hrun : Run (CarefulStep requestId refusal) State.initial ms s)
    (hended : ∀ c r, s.requests c = some r → r.phase.ended = true) (id : Id) :
    s.pending id = none := by
  obtain ⟨h, hk⟩ := kept_run hrun
  cases he : s.pending id with
  | none => rfl
  | some e =>
      obtain ⟨r, hr, hp⟩ := h.dropped_of_ended hended he
      exact absurd hp (hk id e r he hr)

end Held

end Netcatty.Rendezvous
