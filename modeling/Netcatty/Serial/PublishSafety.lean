import Netcatty.Library.Runs
import Netcatty.Serial.Publish

/-! # Publication and cancellation

In every run, whatever fails and whoever comes first, a cancellation that has won and a publication
exclude each other, and what the directory holds at the end is decided by the result alone
(`publish_excludes_cancel`).  The job takes a bounded number of steps (`job_ends`).

The cell and the place of the job determine who may do what (`Invariant`); the directory is that
of the others, with the stage name and the published name as the stage record has them
(`visible`). -/

namespace Netcatty.Serial

open Runs

namespace PublishRun

/-! ### The directory -/

/-- The names of the others, the stage name while it is present and the published name. -/
def visible (received : ReceivedFile) (others : Directory) (stage : PublishReceiveStage) :
    Directory := fun name =>
  if name = received.stageName then if stage.stagePresent then some received.file else none
  else if stage.publishedName = some name then some received.file
  else others name

/-- The directory is what the stage record says. -/
structure Owned (received : ReceivedFile) (before : Directory) (s : PublishRun) : Prop where
  directory : s.directory = visible received s.others s.stage
  stage_free : s.others received.stageName = none
  linked_free : ∀ name ∈ s.linked, s.others name = none ∧ name ≠ received.stageName
  published : ∀ name, s.stage.publishedName = some name → name ∈ s.linked
  others : ∀ name file, name ≠ received.stageName → before name = some file →
    s.others name = some file

variable {received : ReceivedFile} {before : Directory} {s t : PublishRun}

theorem visible_stage (others : Directory) (stage : PublishReceiveStage) :
    visible received others stage received.stageName =
      if stage.stagePresent then some received.file else none := if_pos rfl

theorem visible_other {others : Directory} {stage : PublishReceiveStage} {name : List Char}
    (h : name ≠ received.stageName) : visible received others stage name =
      if stage.publishedName = some name then some received.file else others name := if_neg h

theorem visible_published {others : Directory} {stage : PublishReceiveStage} {name : List Char}
    (h : name ≠ received.stageName) (hname : stage.publishedName = some name) :
    visible received others stage name = some received.file := by
  rw [visible_other h, if_pos hname]

theorem update_visible_stage (others : Directory) (stage : PublishReceiveStage) :
    Function.update (visible received others stage) received.stageName none =
      visible received others { stage with stagePresent := false } := by
  funext name
  by_cases hname : name = received.stageName
  · subst hname
    rw [Function.update_self, visible_stage, if_neg Bool.false_ne_true]
  · rw [Function.update_of_ne hname, visible_other hname, visible_other hname]

theorem update_visible_published {others : Directory} {stage : PublishReceiveStage}
    {name : List Char} (hstage : name ≠ received.stageName)
    (hname : stage.publishedName = some name) (hfree : others name = none) :
    Function.update (visible received others stage) name none =
      visible received others { stage with publishedName := none } := by
  funext other
  by_cases hother : other = name
  · subst hother
    rw [Function.update_self, visible_other hstage, if_neg (by simp), hfree]
  · rw [Function.update_of_ne hother]
    by_cases hstage' : other = received.stageName
    · subst hstage'
      rw [visible_stage, visible_stage]
    · rw [visible_other hstage', visible_other hstage', hname,
        if_neg fun h => hother (Option.some.inj h).symm, if_neg (by simp)]

theorem update_visible_link {others : Directory} {stage : PublishReceiveStage} {name : List Char}
    (hstage : name ≠ received.stageName) (hnone : stage.publishedName = none) :
    Function.update (visible received others stage) name (some received.file) =
      visible received others { stage with publishedName := some name } := by
  funext other
  by_cases hother : other = name
  · subst hother
    rw [Function.update_self, visible_published hstage rfl]
  · rw [Function.update_of_ne hother]
    by_cases hstage' : other = received.stageName
    · subst hstage'
      rw [visible_stage, visible_stage]
    · rw [visible_other hstage', visible_other hstage', hnone, if_neg (by simp),
        if_neg fun h => hother (Option.some.inj h).symm]

theorem update_visible_create {others : Directory} {stage : PublishReceiveStage}
    {name : List Char} (file : FileIdentity) (hstage : name ≠ received.stageName)
    (hname : stage.publishedName ≠ some name) :
    Function.update (visible received others stage) name (some file) =
      visible received (Function.update others name (some file)) stage := by
  funext other
  by_cases hother : other = name
  · subst hother
    rw [Function.update_self, visible_other hstage, if_neg hname, Function.update_self]
  · rw [Function.update_of_ne hother]
    by_cases hstage' : other = received.stageName
    · subst hstage'
      rw [visible_stage, visible_stage]
    · rw [visible_other hstage', visible_other hstage', Function.update_of_ne hother]

namespace Owned

/-- The directory does not depend on the cell, on the place of the job or on the requests. -/
theorem keep (h : Owned received before s) (hdirectory : t.directory = s.directory)
    (hothers : t.others = s.others) (hpublished : t.stage.publishedName = s.stage.publishedName)
    (hpresent : t.stage.stagePresent = s.stage.stagePresent) (hlinked : t.linked = s.linked) :
    Owned received before t where
  directory := by
    rw [hdirectory, h.directory, hothers]
    unfold visible
    rw [hpublished, hpresent]
  stage_free := hothers ▸ h.stage_free
  linked_free := by rw [hothers, hlinked]; exact h.linked_free
  published := by rw [hpublished, hlinked]; exact h.published
  others := hothers ▸ h.others

theorem removePublished (h : Owned received before s) : Owned received before s.removePublished := by
  unfold PublishRun.removePublished
  cases hname : s.stage.publishedName with
  | none => exact h
  | some name =>
      obtain ⟨hfree, hstage⟩ := h.linked_free name (h.published name hname)
      exact {
        directory := by
          change Function.update s.directory name none = _
          rw [h.directory]
          exact update_visible_published hstage hname hfree
        stage_free := h.stage_free
        linked_free := h.linked_free
        published := fun _ hnone => nomatch hnone
        others := h.others }

theorem removePresentStage (h : Owned received before s) :
    Owned received before (s.removePresentStage received) := by
  unfold PublishRun.removePresentStage
  cases hpresent : s.stage.stagePresent with
  | false => exact h
  | true =>
      rw [if_pos rfl]
      exact {
        directory := by
          change Function.update s.directory received.stageName none = _
          rw [h.directory]
          exact update_visible_stage _ _
        stage_free := h.stage_free
        linked_free := h.linked_free
        published := h.published
        others := h.others }

/-- A name is linked where there was none. -/
theorem link (h : Owned received before s) {name : List Char} (hfree : s.directory name = none)
    (hstage : s.directory received.stageName = some received.file)
    (hnone : s.stage.publishedName = none)
    (hdirectory : t.directory = Function.update s.directory name (some received.file))
    (hothers : t.others = s.others) (hlinked : t.linked = name :: s.linked)
    (hstage' : t.stage = { s.stage with publishedName := some name }) :
    Owned received before t := by
  have hne : name ≠ received.stageName := by
    rintro rfl
    rw [hfree] at hstage
    nomatch hstage
  have hfree' : s.others name = none := by
    have := hfree
    rwa [h.directory, visible_other hne, hnone, if_neg (by simp)] at this
  exact {
    directory := by
      rw [hdirectory, h.directory, hothers, hstage']
      exact update_visible_link hne hnone
    stage_free := hothers ▸ h.stage_free
    linked_free := by
      intro other hmem
      rw [hlinked, List.mem_cons] at hmem
      rw [hothers]
      obtain rfl | hmem := hmem
      · exact ⟨hfree', hne⟩
      · exact h.linked_free other hmem
    published := by
      intro other hother
      rw [hstage'] at hother
      rw [hlinked, ← Option.some.inj hother]
      exact List.mem_cons_self
    others := hothers ▸ h.others }

/-- Others create names only. -/
theorem create (h : Owned received before s) {name : List Char} {file : FileIdentity}
    (hfree : s.directory name = none) (hstage : name ≠ received.stageName)
    (hlinked : name ∉ s.linked) : Owned received before (s.create name file) := by
  have hname : s.stage.publishedName ≠ some name := fun heq => hlinked (h.published name heq)
  have hfree' : s.others name = none := by
    have := hfree
    rwa [h.directory, visible_other hstage, if_neg hname] at this
  exact {
    directory := by
      change Function.update s.directory name (some file) = _
      rw [h.directory]
      exact update_visible_create file hstage hname
    stage_free := by
      change Function.update s.others name (some file) _ = none
      rw [Function.update_of_ne (Ne.symm hstage)]
      exact h.stage_free
    linked_free := by
      intro other hmem
      have hne : other ≠ name := fun heq => hlinked (heq ▸ hmem)
      refine ⟨?_, (h.linked_free other hmem).2⟩
      change Function.update s.others name (some file) other = none
      rw [Function.update_of_ne hne]
      exact (h.linked_free other hmem).1
    published := h.published
    others := by
      intro other file' hne hbefore
      have hkept := h.others other file' hne hbefore
      change Function.update s.others name (some file) other = some file'
      rw [Function.update_of_ne]
      · exact hkept
      · rintro rfl
        rw [hfree'] at hkept
        nomatch hkept }

end Owned

end PublishRun

/-! ### The cell -/

namespace PublishState

/-- No job has begun to commit. -/
def IsWaiting (cell : PublishState) : Prop := cell = publishOpen ∨ cell = publishCancelled

/-- A job is committing. -/
def IsClosed (cell : PublishState) : Prop :=
  cell = publishCommitting ∨ cell = publishCancelRequested

/-- What a request has returned or is about to do, as the cell allows it. -/
def Allows (cell : PublishState) : CancelCall → Prop
  | .loading => True
  | .exchanging expected next => (expected = publishOpen ∧ next = publishCancelled) ∨
      (expected = publishCommitting ∧ next = publishCancelRequested)
  | .returned .cancellationWon => cell = publishCancelled ∨ cell = publishCancelRequested
  | .returned .commitWon => cell = publishCommitted

/-- The exchanges and stores of the job. -/
inductive JobStep : PublishState → PublishState → Prop
  | refl (cell : PublishState) : JobStep cell cell
  | begin : JobStep publishOpen publishCommitting
  | reopen : JobStep publishCommitting publishOpen
  | finish : JobStep publishCommitting publishCommitted
  | withdraw : JobStep publishCancelRequested publishCancelled

/-- The exchanges of requests. -/
inductive CancelStep : PublishState → PublishState → Prop
  | cancel : CancelStep publishOpen publishCancelled
  | request : CancelStep publishCommitting publishCancelRequested

variable {cell cell' : PublishState} {call : CancelCall}

theorem Allows.jobStep (h : cell.Allows call) (hstep : JobStep cell cell') : cell'.Allows call := by
  cases call with
  | loading => trivial
  | exchanging expected next => exact h
  | returned disposition =>
      cases disposition with
      | cancellationWon =>
          cases hstep with
          | refl => exact h
          | begin => exact h.elim (nomatch ·) (nomatch ·)
          | reopen => exact h.elim (nomatch ·) (nomatch ·)
          | finish => exact h.elim (nomatch ·) (nomatch ·)
          | withdraw => exact .inl rfl
      | commitWon =>
          cases hstep with
          | refl => exact h
          | begin => nomatch h
          | reopen => nomatch h
          | finish => nomatch h
          | withdraw => nomatch h

theorem Allows.cancelStep (h : cell.Allows call) (hstep : CancelStep cell cell') :
    cell'.Allows call := by
  cases call with
  | loading => trivial
  | exchanging expected next => exact h
  | returned disposition =>
      cases disposition with
      | cancellationWon =>
          cases hstep with
          | cancel => exact .inl rfl
          | request => exact .inr rfl
      | commitWon =>
          cases hstep with
          | cancel => nomatch h
          | request => nomatch h

theorem allows_requestCancel (cell : PublishState) : cell.Allows cell.requestCancel := by
  cases cell with
  | publishOpen => exact .inl ⟨rfl, rfl⟩
  | publishCommitting => exact .inr ⟨rfl, rfl⟩
  | publishCancelled => exact .inl rfl
  | publishCancelRequested => exact .inr rfl
  | publishCommitted => exact rfl

theorem IsWaiting.ne_committed (h : cell.IsWaiting) : cell ≠ publishCommitted := by
  rintro rfl
  exact h.elim (nomatch ·) (nomatch ·)

theorem IsClosed.ne_committed (h : cell.IsClosed) : cell ≠ publishCommitted := by
  rintro rfl
  exact h.elim (nomatch ·) (nomatch ·)

end PublishState

/-! ### The job -/

/-- What a place of the job says about the cell and about what there is to clean up. -/
def PublishPhase.Allows (phase : PublishPhase) (cell : PublishState) (linked : List (List Char))
    (stage : PublishReceiveStage) : Prop :=
  match phase with
  | .takeFile | .flushFile | .syncFile | .dropPending _ | .applyMetadata | .syncStage
  | .inspectStage | .attempt _ => cell.IsWaiting ∧ linked = [] ∧ stage = {}
  | .hardLink _ _ | .retry _ => cell.IsClosed ∧ linked = [] ∧ stage = {}
  | .withdraw => cell = .publishCancelRequested ∧ stage.cleanupArmed = true
  | .inspectPublished name | .removeStage name =>
      cell.IsClosed ∧ linked = [name] ∧ stage = ⟨some name, true, true⟩
  | .syncDirectory name | .finish name =>
      cell.IsClosed ∧ linked = [name] ∧ stage = ⟨some name, false, true⟩
  | .disarm name => cell = .publishCommitted ∧ linked = [name] ∧ stage = ⟨some name, false, true⟩
  | .rollbackPublished | .rollbackStage | .rollbackSync | .finishCancelled _ =>
      cell = .publishCancelRequested ∧ stage.cleanupArmed = true
  | .dropPublished (.ok name) | .done (.ok name) =>
      cell = .publishCommitted ∧ linked = [name] ∧ stage = ⟨some name, false, false⟩
  | .dropPublished (.error _) => cell ≠ .publishCommitted ∧ stage.cleanupArmed = true
  | .dropStage (.ok _) => False
  | .dropStage (.error _) => cell ≠ .publishCommitted ∧ stage.publishedName = none
  | .done (.error _) =>
      cell ≠ .publishCommitted ∧ stage.publishedName = none ∧ stage.stagePresent = false

namespace PublishRun

structure Invariant (received : ReceivedFile) (before : Directory) (s : PublishRun) : Prop where
  owned : Owned received before s
  phase : s.phase.Allows s.cell s.linked s.stage
  calls : ∀ index, s.cell.Allows (s.calls index)

variable {received : ReceivedFile} {before : Directory} {s t : PublishRun}

theorem invariant_start (received : ReceivedFile) (before : Directory) :
    Invariant received before (start received before) where
  owned := {
    directory := by
      funext name
      by_cases hname : name = received.stageName
      · subst hname
        rw [visible_stage]
        exact Function.update_self ..
      · rw [visible_other hname]
        exact (Function.update_of_ne hname ..).trans (Function.update_of_ne hname ..).symm
    stage_free := Function.update_self ..
    linked_free := fun _ hmem => nomatch hmem
    published := fun _ hnone => nomatch hnone
    others := fun _ _ hne hbefore => (Function.update_of_ne hne ..).trans hbefore }
  phase := ⟨.inl rfl, rfl, rfl⟩
  calls := fun _ => trivial

namespace Invariant

/-- A step of the job on the cell. -/
theorem setCell (h : Invariant received before s) {cell : PublishState} {phase : PublishPhase}
    (hcell : s.cell.JobStep cell) (hphase : phase.Allows cell s.linked s.stage) :
    Invariant received before ({ s with cell }.goto phase) where
  owned := h.owned.keep rfl rfl rfl rfl rfl
  phase := hphase
  calls := fun index => (h.calls index).jobStep hcell

theorem goto (h : Invariant received before s) {phase : PublishPhase}
    (hphase : phase.Allows s.cell s.linked s.stage) : Invariant received before (s.goto phase) :=
  h.setCell (.refl _) hphase

theorem fail (h : Invariant received before s) (hcell : s.cell ≠ .publishCommitted)
    (harmed : s.stage.cleanupArmed = true) (error : SerialZmodemError) :
    Invariant received before (s.fail error) :=
  h.goto ⟨hcell, harmed⟩

theorem pendingStep (h : Invariant received before s) (next : PublishPhase)
    {error : SerialZmodemError} (hwaiting : s.cell.IsWaiting ∧ s.linked = [] ∧ s.stage = {})
    (hnext : next.Allows s.cell s.linked s.stage) (outcome : Outcome) :
    Invariant received before (s.pendingStep outcome next error) := by
  unfold PublishRun.pendingStep
  by_cases hout : outcome = .success
  · rw [if_pos hout]
    exact h.goto hnext
  · rw [if_neg hout]
    exact h.goto hwaiting

theorem jobStep (h : Invariant received before s) (next : PublishPhase)
    {operation : NativeFileOperation} (hcell : s.cell ≠ .publishCommitted)
    (harmed : s.stage.cleanupArmed = true) (hnext : next.Allows s.cell s.linked s.stage)
    (outcome : Outcome) : Invariant received before (s.jobStep outcome next operation) := by
  unfold PublishRun.jobStep
  by_cases hout : outcome = .success
  · rw [if_pos hout]
    exact h.goto hnext
  · rw [if_neg hout]
    exact h.fail hcell harmed _

theorem inspect (h : Invariant received before s) {name : List Char} (next : PublishPhase)
    (hcell : s.cell ≠ .publishCommitted) (harmed : s.stage.cleanupArmed = true)
    (hnext : next.Allows s.cell s.linked s.stage) (outcome : Outcome) :
    Invariant received before (s.inspect received outcome name next) := by
  unfold PublishRun.inspect
  by_cases hsame : s.directory name = some received.file
  · rw [if_pos hsame]
    exact h.jobStep next hcell harmed hnext outcome
  · rw [if_neg hsame]
    exact h.fail hcell harmed _

theorem nextAttempt (h : Invariant received before s) (number : ℕ)
    (hwaiting : s.cell.IsWaiting ∧ s.linked = [] ∧ s.stage = {}) :
    Invariant received before (s.nextAttempt received number) := by
  obtain ⟨hcell, hlinked, hstage⟩ := hwaiting
  have harmed : s.stage.cleanupArmed = true := by rw [hstage]
  unfold PublishRun.nextAttempt
  by_cases hlast : maxUniqueDestinationAttempts ≤ number
  · rw [if_pos hlast]
    exact h.fail hcell.ne_committed harmed _
  · rw [if_neg hlast]
    cases uniqueDestinationName received.fileName number with
    | error error => exact h.fail hcell.ne_committed harmed error
    | ok candidate =>
        obtain hopen | hcancelled := hcell
        · simp only [hopen, PublishState.beginCommit, PublishState.compareExchange, if_true]
          exact h.setCell (hopen ▸ .begin) ⟨.inl rfl, hlinked, hstage⟩
        · simp only [hcancelled, PublishState.beginCommit, PublishState.compareExchange, reduceCtorEq,
            if_false]
          exact h.setCell (hcancelled ▸ .refl _) ⟨nofun, harmed⟩

theorem hardLink (h : Invariant received before s) (number : ℕ) (candidate : List Char)
    (hclosed : s.cell.IsClosed ∧ s.linked = [] ∧ s.stage = {}) (outcome : Outcome) :
    Invariant received before (s.hardLink received outcome number candidate) := by
  obtain ⟨hcell, hlinked, hstage⟩ := hclosed
  have harmed : s.stage.cleanupArmed = true := by rw [hstage]
  have hpresent : s.directory received.stageName = some received.file := by
    rw [h.owned.directory, visible_stage, hstage, if_pos rfl]
  unfold PublishRun.hardLink
  rw [hpresent]
  cases outcome with
  | failure => exact h.fail hcell.ne_committed harmed _
  | alreadyExists => exact h.goto ⟨hcell, hlinked, hstage⟩
  | success =>
      cases hname : s.directory candidate with
      | some file => exact h.goto ⟨hcell, hlinked, hstage⟩
      | none =>
          refine ⟨h.owned.link hname hpresent (by rw [hstage]) rfl rfl rfl rfl, ?_, h.calls⟩
          refine ⟨hcell, congrArg (candidate :: ·) hlinked, ?_⟩
          rw [hstage]

theorem retry (h : Invariant received before s) (number : ℕ)
    (hclosed : s.cell.IsClosed ∧ s.linked = [] ∧ s.stage = {}) :
    Invariant received before (s.retry number) := by
  obtain ⟨hcell, hlinked, hstage⟩ := hclosed
  unfold PublishRun.retry
  obtain hcommitting | hrequested := hcell
  · simp only [hcommitting, PublishState.retryAfterNameConflict, PublishState.compareExchange,
      if_true]
    exact h.setCell (hcommitting ▸ .reopen) ⟨.inl rfl, hlinked, hstage⟩
  · simp only [hrequested, PublishState.retryAfterNameConflict, PublishState.compareExchange,
      reduceCtorEq, if_false, if_true]
    exact h.setCell (hrequested ▸ .refl _) ⟨rfl, by rw [hstage]⟩

theorem removeStage (h : Invariant received before s) {name : List Char}
    (hclosed : s.cell.IsClosed ∧ s.linked = [name] ∧ s.stage = ⟨some name, true, true⟩)
    (outcome : Outcome) : Invariant received before (s.removeStage received outcome name) := by
  obtain ⟨hcell, hlinked, hstage⟩ := hclosed
  have hremoved : s.removePresentStage received =
      { s.remove received.stageName with stage.stagePresent := false } := by
    rw [PublishRun.removePresentStage, hstage, if_pos rfl]
  unfold PublishRun.removeStage
  by_cases hout : outcome = .success
  · rw [if_pos hout, ← hremoved]
    refine ⟨h.owned.removePresentStage.keep rfl rfl rfl rfl rfl, ?_, ?_⟩
    · rw [hremoved]
      exact ⟨hcell, hlinked, congrArg (fun stage => { stage with stagePresent := false }) hstage⟩
    · rw [hremoved]
      exact h.calls
  · rw [if_neg hout]
    exact h.fail hcell.ne_committed (by rw [hstage]) _

/-- A step that cleans up. -/
theorem clean (h : Invariant received before s) (howned : Owned received before t)
    (hcell : t.cell = s.cell) (hcalls : t.calls = s.calls) {phase : PublishPhase}
    (hphase : phase.Allows s.cell t.linked t.stage) : Invariant received before (t.goto phase) where
  owned := howned.keep rfl rfl rfl rfl rfl
  phase := by
    change phase.Allows t.cell t.linked t.stage
    rw [hcell]
    exact hphase
  calls := by
    intro index
    change t.cell.Allows (t.calls index)
    rw [hcell, hcalls]
    exact h.calls index

theorem finish (h : Invariant received before s) {name : List Char}
    (hclosed : s.cell.IsClosed ∧ s.linked = [name] ∧ s.stage = ⟨some name, false, true⟩) :
    Invariant received before (s.finish name) := by
  obtain ⟨hcell, hlinked, hstage⟩ := hclosed
  unfold PublishRun.finish
  obtain hcommitting | hrequested := hcell
  · simp only [hcommitting, PublishState.finishCommit, PublishState.compareExchange, if_true]
    exact h.setCell (hcommitting ▸ .finish) ⟨rfl, hlinked, hstage⟩
  · simp only [hrequested, PublishState.finishCommit, PublishState.compareExchange, reduceCtorEq,
      if_false]
    exact h.setCell (hrequested ▸ .refl _) ⟨rfl, by rw [hstage]⟩

theorem finishCancelled (h : Invariant received before s)
    (hrequested : s.cell = .publishCancelRequested) (harmed : s.stage.cleanupArmed = true)
    (rollback : Except SerialZmodemError Unit) :
    Invariant received before (s.finishCancelled rollback) := by
  unfold PublishRun.finishCancelled
  cases rollback with
  | error error =>
      exact h.setCell (hrequested ▸ .withdraw)
        ⟨nofun, harmed⟩
  | ok _ =>
      exact h.setCell (hrequested ▸ .withdraw)
        ⟨nofun, harmed⟩

end Invariant

theorem removePublished_eq (s : PublishRun) :
    s.removePublished.cell = s.cell ∧ s.removePublished.calls = s.calls ∧
      s.removePublished.stage = { s.stage with publishedName := none } := by
  unfold removePublished
  cases hname : s.stage.publishedName with
  | some name => exact ⟨rfl, rfl, rfl⟩
  | none =>
      have hstage : { s.stage with publishedName := none } = s.stage := by rw [← hname]
      exact ⟨rfl, rfl, hstage.symm⟩

theorem removePresentStage_eq (s : PublishRun) :
    (s.removePresentStage received).cell = s.cell ∧
      (s.removePresentStage received).calls = s.calls ∧
      (s.removePresentStage received).stage = { s.stage with stagePresent := false } := by
  unfold removePresentStage
  cases hpresent : s.stage.stagePresent with
  | true => exact ⟨rfl, rfl, rfl⟩
  | false => exact ⟨rfl, rfl, by rw [if_neg Bool.false_ne_true, ← hpresent]⟩

/-- **A step of the job** keeps the invariant. -/
theorem job_invariant (h : Invariant received before s) (outcome : Outcome) :
    Invariant received before (s.job received outcome) := by
  have hphase := h.phase
  obtain ⟨hcell, hcalls, hstage⟩ := removePresentStage_eq s
  obtain ⟨hcell', hcalls', hstage'⟩ := removePublished_eq s
  unfold job
  cases hp : s.phase with
  | takeFile => rw [hp] at hphase; exact h.pendingStep .flushFile hphase hphase outcome
  | flushFile => rw [hp] at hphase; exact h.pendingStep .syncFile hphase hphase outcome
  | syncFile => rw [hp] at hphase; exact h.pendingStep .applyMetadata hphase hphase outcome
  | dropPending error =>
      rw [hp] at hphase
      refine h.clean h.owned.removePresentStage hcell hcalls ?_
      rw [hstage, hphase.2.2]
      exact ⟨hphase.1.ne_committed, rfl, rfl⟩
  | applyMetadata =>
      rw [hp] at hphase
      exact h.jobStep .syncStage hphase.1.ne_committed (by rw [hphase.2.2]) hphase outcome
  | syncStage =>
      rw [hp] at hphase
      exact h.jobStep .inspectStage hphase.1.ne_committed (by rw [hphase.2.2]) hphase outcome
  | inspectStage =>
      rw [hp] at hphase
      exact h.inspect (.attempt 0) hphase.1.ne_committed (by rw [hphase.2.2]) hphase outcome
  | attempt number => rw [hp] at hphase; exact h.nextAttempt number hphase
  | hardLink number candidate => rw [hp] at hphase; exact h.hardLink number candidate hphase outcome
  | retry number => rw [hp] at hphase; exact h.retry number hphase
  | withdraw =>
      rw [hp] at hphase
      obtain ⟨hrequested, harmed⟩ := hphase
      exact h.setCell (hrequested ▸ .withdraw) ⟨nofun, harmed⟩
  | inspectPublished name =>
      rw [hp] at hphase
      exact h.inspect (.removeStage name) hphase.1.ne_committed (by rw [hphase.2.2]) hphase outcome
  | removeStage name => rw [hp] at hphase; exact h.removeStage hphase outcome
  | syncDirectory name =>
      rw [hp] at hphase
      exact h.jobStep (.finish name) hphase.1.ne_committed (by rw [hphase.2.2]) hphase outcome
  | finish name => rw [hp] at hphase; exact h.finish hphase
  | disarm name =>
      rw [hp] at hphase
      obtain ⟨hcommitted, hlinked, hstage⟩ := hphase
      refine h.clean (t := { s with stage.cleanupArmed := false })
        (h.owned.keep rfl rfl rfl rfl rfl) rfl rfl ⟨hcommitted, hlinked, ?_⟩
      change { s.stage with cleanupArmed := false } = _
      rw [hstage]
  | rollbackPublished =>
      rw [hp] at hphase
      refine h.clean h.owned.removePublished hcell' hcalls' ?_
      rw [hstage']
      exact hphase
  | rollbackStage =>
      rw [hp] at hphase
      refine h.clean h.owned.removePresentStage hcell hcalls ?_
      rw [hstage]
      exact hphase
  | rollbackSync =>
      rw [hp] at hphase
      exact h.goto hphase
  | finishCancelled rollback =>
      rw [hp] at hphase
      exact h.finishCancelled hphase.1 hphase.2 rollback
  | dropPublished result =>
      rw [hp] at hphase
      cases result with
      | ok name =>
          have hdisarmed : s.stage.cleanupArmed = false := by rw [hphase.2.2]
          simp only [hdisarmed, Bool.false_eq_true, if_false]
          exact h.goto hphase
      | error error =>
          simp only [hphase.2, if_true]
          refine h.clean h.owned.removePublished hcell' hcalls' ?_
          rw [hstage']
          exact ⟨hphase.1, rfl⟩
  | dropStage result =>
      rw [hp] at hphase
      cases result with
      | ok name => exact hphase.elim
      | error error =>
          refine h.clean h.owned.removePresentStage hcell hcalls ?_
          rw [hstage]
          exact ⟨hphase.1, hphase.2, rfl⟩
  | done result => exact h

/-! ### Runs -/

theorem setCall_allows {cell : PublishState} {calls : ℕ → CancelCall}
    (h : ∀ index, cell.Allows (calls index)) {call : CancelCall} (hcall : cell.Allows call)
    (changed index : ℕ) : cell.Allows (Function.update calls changed call index) := by
  by_cases heq : index = changed
  · subst heq
    rw [Function.update_self]
    exact hcall
  · rw [Function.update_of_ne heq]
    exact h index

/-- What a place of the job says stays true when a request changes the cell. -/
theorem allows_cancelStep {phase : PublishPhase} {cell cell' : PublishState}
    {linked : List (List Char)} {stage : PublishReceiveStage}
    (h : phase.Allows cell linked stage) (hstep : cell.CancelStep cell') :
    phase.Allows cell' linked stage := by
  have hwaiting : cell.IsWaiting → cell'.IsWaiting := by
    intro hcell
    cases hstep with
    | cancel => exact .inr rfl
    | request => exact hcell.elim (nomatch ·) (nomatch ·)
  have hclosed : cell.IsClosed → cell'.IsClosed := by
    intro hcell
    cases hstep with
    | cancel => exact hcell.elim (nomatch ·) (nomatch ·)
    | request => exact .inr rfl
  have hrequested : cell ≠ .publishCancelRequested ∧ cell ≠ .publishCommitted ∧
      cell' ≠ .publishCommitted := by
    cases hstep with
    | cancel => exact ⟨nofun, nofun, nofun⟩
    | request => exact ⟨nofun, nofun, nofun⟩
  cases phase with
  | takeFile => exact ⟨hwaiting h.1, h.2⟩
  | flushFile => exact ⟨hwaiting h.1, h.2⟩
  | syncFile => exact ⟨hwaiting h.1, h.2⟩
  | dropPending error => exact ⟨hwaiting h.1, h.2⟩
  | applyMetadata => exact ⟨hwaiting h.1, h.2⟩
  | syncStage => exact ⟨hwaiting h.1, h.2⟩
  | inspectStage => exact ⟨hwaiting h.1, h.2⟩
  | attempt number => exact ⟨hwaiting h.1, h.2⟩
  | hardLink number candidate => exact ⟨hclosed h.1, h.2⟩
  | retry number => exact ⟨hclosed h.1, h.2⟩
  | withdraw => exact absurd h.1 hrequested.1
  | inspectPublished name => exact ⟨hclosed h.1, h.2⟩
  | removeStage name => exact ⟨hclosed h.1, h.2⟩
  | syncDirectory name => exact ⟨hclosed h.1, h.2⟩
  | finish name => exact ⟨hclosed h.1, h.2⟩
  | disarm name => exact absurd h.1 hrequested.2.1
  | rollbackPublished => exact absurd h.1 hrequested.1
  | rollbackStage => exact absurd h.1 hrequested.1
  | rollbackSync => exact absurd h.1 hrequested.1
  | finishCancelled rollback => exact absurd h.1 hrequested.1
  | dropPublished result =>
      cases result with
      | ok name => exact absurd h.1 hrequested.2.1
      | error error => exact ⟨hrequested.2.2, h.2⟩
  | dropStage result =>
      cases result with
      | ok name => exact h.elim
      | error error => exact ⟨hrequested.2.2, h.2⟩
  | done result =>
      cases result with
      | ok name => exact absurd h.1 hrequested.2.1
      | error error => exact ⟨hrequested.2.2, h.2⟩

theorem load_invariant (h : Invariant received before s) (index : ℕ) :
    Invariant received before (s.load index) where
  owned := h.owned.keep rfl rfl rfl rfl rfl
  phase := h.phase
  calls := setCall_allows h.calls (PublishState.allows_requestCancel _) index

theorem exchange_invariant (h : Invariant received before s) {index : ℕ}
    {expected next : PublishState} (hcall : s.calls index = .exchanging expected next) :
    Invariant received before (s.exchange index expected next) := by
  have hallowed := h.calls index
  rw [hcall] at hallowed
  unfold exchange PublishState.compareExchange
  by_cases hcell : s.cell = expected
  · have hstep : s.cell.CancelStep next := by
      obtain ⟨rfl, rfl⟩ | ⟨rfl, rfl⟩ := hallowed
      · rw [hcell]
        exact .cancel
      · rw [hcell]
        exact .request
    have hwon : next.Allows (.returned .cancellationWon) := by
      obtain ⟨-, rfl⟩ | ⟨-, rfl⟩ := hallowed
      · exact .inl rfl
      · exact .inr rfl
    rw [if_pos hcell]
    exact {
      owned := h.owned.keep rfl rfl rfl rfl rfl
      phase := allows_cancelStep h.phase hstep
      calls := setCall_allows (fun index => (h.calls index).cancelStep hstep) hwon index }
  · rw [if_neg hcell]
    exact {
      owned := h.owned.keep rfl rfl rfl rfl rfl
      phase := h.phase
      calls := setCall_allows h.calls (show s.cell.Allows .loading from trivial) index }

/-- **Every step** keeps the invariant. -/
theorem step_invariant {action : Action} (h : Invariant received before s)
    (hstep : Step received s action t) : Invariant received before t := by
  cases hstep with
  | job outcome hrunning => exact job_invariant h outcome
  | load hcall => exact load_invariant h _
  | exchange hcall => exact exchange_invariant h hcall
  | create file hfree hstage hlinked => exact ⟨h.owned.create hfree hstage hlinked, h.phase, h.calls⟩

theorem run_invariant {actions : List Action}
    (h : Run (Step received) (start received before) actions s) : Invariant received before s :=
  h.invariant (invariant_start received before) fun _ _ _ hs hstep => step_invariant hs hstep

/-- A job that has committed has linked one name, which is the file's only one. -/
theorem Invariant.published (h : Invariant received before s) (hcell : s.cell = .publishCommitted) :
    ∃ name, s.linked = [name] ∧ s.stage.publishedName = some name ∧ s.stage.stagePresent = false ∧
      ∀ name', s.phase = .done (.ok name') → name' = name := by
  have hphase := h.phase
  rw [hcell] at hphase
  cases hp : s.phase with
  | takeFile => rw [hp] at hphase; exact absurd rfl hphase.1.ne_committed
  | flushFile => rw [hp] at hphase; exact absurd rfl hphase.1.ne_committed
  | syncFile => rw [hp] at hphase; exact absurd rfl hphase.1.ne_committed
  | dropPending error => rw [hp] at hphase; exact absurd rfl hphase.1.ne_committed
  | applyMetadata => rw [hp] at hphase; exact absurd rfl hphase.1.ne_committed
  | syncStage => rw [hp] at hphase; exact absurd rfl hphase.1.ne_committed
  | inspectStage => rw [hp] at hphase; exact absurd rfl hphase.1.ne_committed
  | attempt number => rw [hp] at hphase; exact absurd rfl hphase.1.ne_committed
  | hardLink number candidate => rw [hp] at hphase; exact absurd rfl hphase.1.ne_committed
  | retry number => rw [hp] at hphase; exact absurd rfl hphase.1.ne_committed
  | withdraw => rw [hp] at hphase; nomatch hphase.1
  | inspectPublished name => rw [hp] at hphase; exact absurd rfl hphase.1.ne_committed
  | removeStage name => rw [hp] at hphase; exact absurd rfl hphase.1.ne_committed
  | syncDirectory name => rw [hp] at hphase; exact absurd rfl hphase.1.ne_committed
  | finish name => rw [hp] at hphase; exact absurd rfl hphase.1.ne_committed
  | disarm name =>
      rw [hp] at hphase
      obtain ⟨-, hlinked, hstage⟩ := hphase
      exact ⟨name, hlinked, by rw [hstage], by rw [hstage], fun _ hdone => nomatch hdone⟩
  | rollbackPublished => rw [hp] at hphase; nomatch hphase.1
  | rollbackStage => rw [hp] at hphase; nomatch hphase.1
  | rollbackSync => rw [hp] at hphase; nomatch hphase.1
  | finishCancelled rollback => rw [hp] at hphase; nomatch hphase.1
  | dropPublished result =>
      rw [hp] at hphase
      cases result with
      | ok name =>
          obtain ⟨-, hlinked, hstage⟩ := hphase
          exact ⟨name, hlinked, by rw [hstage], by rw [hstage], fun _ hdone => nomatch hdone⟩
      | error error => exact absurd rfl hphase.1
  | dropStage result =>
      rw [hp] at hphase
      cases result with
      | ok name => exact hphase.elim
      | error error => exact absurd rfl hphase.1
  | done result =>
      rw [hp] at hphase
      cases result with
      | ok name =>
          obtain ⟨-, hlinked, hstage⟩ := hphase
          refine ⟨name, hlinked, by rw [hstage], by rw [hstage], fun name' hdone => ?_⟩
          cases hdone
          rfl
      | error error => exact absurd rfl hphase.1

theorem Invariant.cell_of_ok (h : Invariant received before s) {name : List Char}
    (hok : s.phase = .done (.ok name)) : s.cell = .publishCommitted := by
  have hphase := h.phase
  rw [hok] at hphase
  exact hphase.1

theorem Invariant.cell_of_returned (h : Invariant received before s) {index : ℕ}
    {disposition : PublishCancelDisposition} (hcall : s.calls index = .returned disposition) :
    s.cell.Allows (.returned disposition) := hcall ▸ h.calls index

theorem Invariant.ne_committed_of_won (h : Invariant received before s) {index : ℕ}
    (hwon : s.calls index = .returned .cancellationWon) : s.cell ≠ .publishCommitted := by
  have hcell := h.cell_of_returned hwon
  intro hcommitted
  rw [hcommitted] at hcell
  exact hcell.elim (nomatch ·) (nomatch ·)

/-- **Publishing and cancelling never both win.**  Where a request has been told that the cancellation
won, the job does not succeed; where the job ends without success, the stage name and all names that
it has linked are gone.  Where a request has been told that the commit won, or the job has succeeded,
the job has linked one name, which nobody had created before, and that is the file's only one.  No
name that existed before is ever removed or given another file, and of the names apart from the
job's own every one is as the others have made it. -/
theorem publish_excludes_cancel {actions : List Action}
    (h : Run (Step received) (start received before) actions s) :
    ((∃ index, s.calls index = .returned .cancellationWon) →
      (∀ name, s.phase ≠ .done (.ok name)) ∧
        ∀ index, s.calls index ≠ .returned .commitWon) ∧
    (∀ error, s.phase = .done (.error error) →
      s.directory received.stageName = none ∧ (∀ name ∈ s.linked, s.directory name = none) ∧
        s.directory = s.others) ∧
    (∀ name file, name ≠ received.stageName → before name = some file →
      s.directory name = some file) ∧
    ((∃ index, s.calls index = .returned .commitWon) ∨ (∃ name, s.phase = .done (.ok name)) →
      ∃ name, s.linked = [name] ∧ s.directory name = some received.file ∧
        name ≠ received.stageName ∧ before name = none ∧ s.others name = none ∧
        s.directory received.stageName = none ∧
        (∀ other, other ≠ name → s.directory other = s.others other) ∧
        ∀ name', s.phase = .done (.ok name') → name' = name) := by
  have hinv := run_invariant h
  have hbefore : ∀ name file, name ≠ received.stageName → before name = some file →
      s.directory name = some file := by
    intro name file hne hname
    have hothers := hinv.owned.others name file hne hname
    rw [hinv.owned.directory, visible_other hne, if_neg, hothers]
    intro hpublished
    have hfree := (hinv.owned.linked_free name (hinv.owned.published name hpublished)).1
    rw [hothers] at hfree
    nomatch hfree
  refine ⟨?_, ?_, hbefore, ?_⟩
  · rintro ⟨index, hwon⟩
    have hne := hinv.ne_committed_of_won hwon
    exact ⟨fun name hok => hne (hinv.cell_of_ok hok),
      fun index hcommit => hne (hinv.cell_of_returned hcommit)⟩
  · intro error hdone
    have hphase := hinv.phase
    rw [hdone] at hphase
    obtain ⟨-, hpublished, hpresent⟩ := hphase
    have hothers : s.directory = s.others := by
      funext name
      rw [hinv.owned.directory]
      by_cases hname : name = received.stageName
      · rw [hname, visible_stage, hpresent, hinv.owned.stage_free]
        rfl
      · rw [visible_other hname, hpublished, if_neg (by simp)]
    refine ⟨?_, fun name hmem => ?_, hothers⟩
    · rw [hothers]
      exact hinv.owned.stage_free
    · rw [hothers]
      exact (hinv.owned.linked_free name hmem).1
  · intro hwon
    have hcell : s.cell = .publishCommitted := by
      obtain ⟨index, hcommit⟩ | ⟨name, hok⟩ := hwon
      · exact hinv.cell_of_returned hcommit
      · exact hinv.cell_of_ok hok
    obtain ⟨name, hlinked, hpublished, hpresent, hresult⟩ := hinv.published hcell
    have hmem : name ∈ s.linked := by
      rw [hlinked]
      exact List.mem_singleton_self _
    obtain ⟨hfree, hne⟩ := hinv.owned.linked_free name hmem
    refine ⟨name, hlinked, ?_, hne, ?_, hfree, ?_, fun other hother => ?_, hresult⟩
    · rw [hinv.owned.directory]
      exact visible_published hne hpublished
    · cases hold : before name with
      | none => rfl
      | some file =>
          have hothers := hinv.owned.others name file hne hold
          rw [hfree] at hothers
          nomatch hothers
    · rw [hinv.owned.directory, visible_stage, hpresent]
      rfl
    · rw [hinv.owned.directory]
      by_cases hstage : other = received.stageName
      · rw [hstage, visible_stage, hpresent, hinv.owned.stage_free]
        rfl
      · rw [visible_other hstage, hpublished, if_neg fun heq => hother (Option.some.inj heq).symm]

theorem run_jobs (outcomes : List Outcome) (s : PublishRun)
    (h : ∀ count, count < outcomes.length →
      ((outcomes.take count).foldl (job received) s).phase.isDone = false) :
    Run (Step received) s (outcomes.map .job) (outcomes.foldl (job received) s) := by
  induction outcomes generalizing s with
  | nil => exact .refl
  | cons outcome rest ih =>
      have hfirst := h 0 (Nat.succ_pos _)
      refine (Run.single (.job outcome hfirst)).trans (ih (s.job received outcome) ?_)
      intro count hcount
      exact h (count + 1) (Nat.succ_lt_succ hcount)

/-- A file is published under its own name, and a request to cancel comes too late. -/
theorem published_before_cancel :
    let received : ReceivedFile := ⟨['s'], ['a'], 7⟩
    let s := ((List.replicate 14 Outcome.success).foldl (job received)
      (start received fun _ => none)).load 0
    (∃ actions, Run (Step received) (start received fun _ => none) actions s) ∧
      s.calls 0 = .returned .commitWon ∧ ∃ name, s.linked = [name] ∧ s.directory name = some 7 := by
  have hrun : ∃ actions, Run (Step ⟨['s'], ['a'], 7⟩) (start ⟨['s'], ['a'], 7⟩ fun _ => none) actions
      (((List.replicate 14 Outcome.success).foldl (job ⟨['s'], ['a'], 7⟩)
        (start ⟨['s'], ['a'], 7⟩ fun _ => none)).load 0) :=
    ⟨_, .snoc (run_jobs (List.replicate 14 .success) _ (by decide)) (.load rfl)⟩
  obtain ⟨actions, hactions⟩ := hrun
  have hcommit : ((((List.replicate 14 Outcome.success).foldl (job ⟨['s'], ['a'], 7⟩)
      (start ⟨['s'], ['a'], 7⟩ fun _ => none)).load 0).calls 0) = .returned .commitWon := by
    decide
  obtain ⟨name, hlinked, hname, -⟩ := (publish_excludes_cancel hactions).2.2.2 (.inl ⟨0, hcommit⟩)
  exact ⟨⟨actions, hactions⟩, hcommit, name, hlinked, hname⟩

/-! ### The end of the job -/

/-- How many steps the job may still take. -/
def rank : PublishPhase → ℕ
  | .takeFile => 3 * maxUniqueDestinationAttempts + 20
  | .flushFile => 3 * maxUniqueDestinationAttempts + 19
  | .syncFile => 3 * maxUniqueDestinationAttempts + 18
  | .applyMetadata => 3 * maxUniqueDestinationAttempts + 17
  | .syncStage => 3 * maxUniqueDestinationAttempts + 16
  | .inspectStage => 3 * maxUniqueDestinationAttempts + 15
  | .attempt number => 3 * (maxUniqueDestinationAttempts - number) + 14
  | .hardLink number _ => 3 * (maxUniqueDestinationAttempts - (number + 1)) + 16
  | .retry number => 3 * (maxUniqueDestinationAttempts - (number + 1)) + 15
  | .inspectPublished _ => 10
  | .removeStage _ => 9
  | .syncDirectory _ => 8
  | .finish _ => 7
  | .rollbackPublished => 6
  | .rollbackStage => 5
  | .rollbackSync => 4
  | .withdraw | .disarm _ | .finishCancelled _ => 3
  | .dropPublished _ => 2
  | .dropStage _ | .dropPending _ => 1
  | .done _ => 0

theorem rank_pendingStep (outcome : Outcome) {next : PublishPhase} (error : SerialZmodemError)
    {bound : ℕ} (h : rank next < bound) (hbound : 1 < bound) :
    rank (s.pendingStep outcome next error).phase < bound := by
  unfold pendingStep
  by_cases hout : outcome = .success
  · rw [if_pos hout]
    exact h
  · rw [if_neg hout]
    exact hbound

theorem rank_jobStep (outcome : Outcome) {next : PublishPhase} (operation : NativeFileOperation)
    {bound : ℕ} (h : rank next < bound) (hbound : 2 < bound) :
    rank (s.jobStep outcome next operation).phase < bound := by
  unfold jobStep
  by_cases hout : outcome = .success
  · rw [if_pos hout]
    exact h
  · rw [if_neg hout]
    exact hbound

theorem rank_inspect (outcome : Outcome) (name : List Char) {next : PublishPhase} {bound : ℕ}
    (h : rank next < bound) (hbound : 2 < bound) :
    rank (s.inspect received outcome name next).phase < bound := by
  unfold inspect
  by_cases hsame : s.directory name = some received.file
  · rw [if_pos hsame]
    exact rank_jobStep outcome .inspect h hbound
  · rw [if_neg hsame]
    exact hbound

theorem rank_nextAttempt (number : ℕ) :
    rank (s.nextAttempt received number).phase < rank (.attempt number) := by
  have hfail : 2 < rank (.attempt number) := Nat.lt_of_lt_of_le (by decide) (Nat.le_add_left 14 _)
  unfold nextAttempt
  by_cases hlast : maxUniqueDestinationAttempts ≤ number
  · rw [if_pos hlast]
    exact hfail
  · rw [if_neg hlast]
    cases uniqueDestinationName received.fileName number with
    | error error => exact hfail
    | ok candidate =>
        cases hcell : s.cell.beginCommit with
        | mk cell done =>
            cases done with
            | false => exact hfail
            | true =>
                change 3 * (maxUniqueDestinationAttempts - (number + 1)) + 16 <
                  3 * (maxUniqueDestinationAttempts - number) + 14
                omega

theorem rank_hardLink (outcome : Outcome) (number : ℕ) (candidate : List Char) :
    rank (s.hardLink received outcome number candidate).phase < rank (.hardLink number candidate) := by
  have hretry : rank (.retry number) < rank (.hardLink number candidate) := Nat.lt_succ_self _
  have hnext : 10 < rank (.hardLink number candidate) :=
    Nat.lt_of_lt_of_le (by decide) (Nat.le_add_left 16 _)
  have hfail : 2 < rank (.hardLink number candidate) := Nat.lt_trans (by decide) hnext
  unfold hardLink
  cases outcome with
  | failure => exact hfail
  | alreadyExists => exact hretry
  | success =>
      cases s.directory received.stageName with
      | none => exact hfail
      | some file =>
          cases s.directory candidate with
          | none => exact hnext
          | some file => exact hretry

theorem rank_retry (number : ℕ) : rank (s.retry number).phase < rank (.retry number) := by
  have hfail : 3 < rank (.retry number) := Nat.lt_of_lt_of_le (by decide) (Nat.le_add_left 15 _)
  unfold retry
  cases hcell : s.cell.retryAfterNameConflict with
  | mk cell done =>
      cases done with
      | true => exact Nat.lt_succ_self _
      | false =>
          by_cases hrequested : cell = .publishCancelRequested
          · simp only [if_pos hrequested]
            exact hfail
          · simp only [if_neg hrequested]
            exact Nat.lt_trans (Nat.lt_succ_self 2) hfail

/-- **Every step of the job** brings it closer to its end. -/
theorem rank_job (hrunning : s.phase.isDone = false) (outcome : Outcome) :
    rank (s.job received outcome).phase < rank s.phase := by
  unfold job
  cases hp : s.phase with
  | takeFile => exact rank_pendingStep outcome _ (Nat.lt_succ_self _) (by decide)
  | flushFile => exact rank_pendingStep outcome _ (Nat.lt_succ_self _) (by decide)
  | syncFile => exact rank_pendingStep outcome _ (Nat.lt_succ_self _) (by decide)
  | dropPending error => exact Nat.zero_lt_one
  | applyMetadata => exact rank_jobStep outcome _ (Nat.lt_succ_self _) (by decide)
  | syncStage => exact rank_jobStep outcome _ (Nat.lt_succ_self _) (by decide)
  | inspectStage => exact rank_inspect outcome _ (Nat.lt_succ_self _) (by decide)
  | attempt number => exact rank_nextAttempt number
  | hardLink number candidate => exact rank_hardLink outcome number candidate
  | retry number => exact rank_retry number
  | withdraw => exact Nat.lt_succ_self _
  | inspectPublished name =>
      exact rank_inspect outcome _ (Nat.lt_succ_self _) (by decide : 2 < 10)
  | removeStage name =>
      dsimp only
      unfold removeStage
      by_cases hout : outcome = .success
      · rw [if_pos hout]
        exact Nat.lt_succ_self _
      · rw [if_neg hout]
        exact (by decide : 2 < 9)
  | syncDirectory name => exact rank_jobStep outcome _ (Nat.lt_succ_self _) (by decide : 2 < 8)
  | finish name =>
      dsimp only
      unfold finish
      cases hcell : s.cell.finishCommit with
      | mk cell done =>
          cases done with
          | true => exact (by decide : 3 < 7)
          | false => exact Nat.lt_succ_self _
  | disarm name => exact Nat.lt_succ_self _
  | rollbackPublished => exact Nat.lt_succ_self _
  | rollbackStage => exact Nat.lt_succ_self _
  | rollbackSync => exact Nat.lt_succ_self _
  | finishCancelled rollback =>
      cases rollback with
      | error error => exact Nat.lt_succ_self _
      | ok _ => exact Nat.lt_succ_self _
  | dropPublished result =>
      dsimp only
      by_cases harmed : s.stage.cleanupArmed = true
      · rw [if_pos harmed]
        exact Nat.lt_succ_self _
      · rw [if_neg harmed]
        exact Nat.zero_lt_two
  | dropStage result => exact Nat.zero_lt_one
  | done result => rw [hp] at hrunning; nomatch hrunning

/-- Only the job's steps count. -/
def Action.jobSteps : Action → ℕ
  | .job _ => 1
  | _ => 0

/-- **The job ends**, whatever fails and however often it is asked to cancel. -/
theorem job_ends {actions : List Action}
    (h : Run (Step received) (start received before) actions s) :
    (actions.map Action.jobSteps).sum ≤ 3 * maxUniqueDestinationAttempts + 20 := by
  refine h.cost_le (I := fun _ => True) (fun s => rank s.phase)
    (fun _ _ _ _ _ => trivial) (fun t action u _ hstep => ?_) trivial
  cases hstep with
  | job outcome hrunning => exact rank_job hrunning outcome
  | load hcall => exact Nat.le_refl _
  | exchange hcall =>
      change rank (t.exchange _ _ _).phase + 0 ≤ rank t.phase
      unfold exchange
      cases t.cell.compareExchange _ _ with
      | mk cell done => cases done <;> exact Nat.le_refl _
  | create file hfree hstage hlinked => exact Nat.le_refl _

theorem job_ends_published :
    (((List.replicate 14 Outcome.success).map Action.job).map Action.jobSteps).sum ≤
      3 * maxUniqueDestinationAttempts + 20 := by
  have hrun : Run (Step ⟨['s'], ['a'], 7⟩) (start ⟨['s'], ['a'], 7⟩ fun _ => none) _ _ :=
    run_jobs (List.replicate 14 .success) _ (by decide)
  exact job_ends hrun

end PublishRun

end Netcatty.Serial
