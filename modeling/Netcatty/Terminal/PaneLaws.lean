import Netcatty.Library.Cursor
import Netcatty.Terminal.Panes

/-! # Laws of the pane tree

The sessions of a layout that calls lead to are distinct, there are not more than fit, and one of
them is in focus (`SoundLayout`).  Its rectangles tile the unit square (`visitPanes_tiles`), a pane
that was just inserted is removed without a trace (`removeTerminalPane_insert`), and pruning keeps
the live panes in their order, with the focus at the nearest one
(`pruneTerminalPaneLayout_spec`). -/

namespace Netcatty.Terminal

open Cursor

variable {σ : Type}

/-! ### Sessions of a tree -/

theorem collect_ne_nil (node : TerminalPaneLayoutNode σ) :
    collectTerminalPaneSessionIds node ≠ [] := by
  induction node with
  | pane id sessionId => simp [collectTerminalPaneSessionIds]
  | split id direction ratio first second ih _ => simp [collectTerminalPaneSessionIds, ih]

variable [DecidableEq σ]

/-- What is left of a tree has the sessions that are left. -/
theorem collect_removeSessionNode (sessionId : σ) (node : TerminalPaneLayoutNode σ) :
    ((removeSessionNode sessionId node).map collectTerminalPaneSessionIds).getD [] =
      (collectTerminalPaneSessionIds node).filter (· ≠ sessionId) := by
  induction node with
  | pane id session =>
      unfold removeSessionNode
      split_ifs with h <;> simp [collectTerminalPaneSessionIds, h]
  | split id direction ratio first second ihf ihs =>
      rw [collectTerminalPaneSessionIds, List.filter_append, ← ihf, ← ihs, removeSessionNode]
      cases removeSessionNode sessionId first <;> cases removeSessionNode sessionId second <;>
        simp [collectTerminalPaneSessionIds]

theorem removeSessionNode_eq_none {sessionId : σ} {node : TerminalPaneLayoutNode σ}
    (h : removeSessionNode sessionId node = none) :
    (collectTerminalPaneSessionIds node).filter (· ≠ sessionId) = [] := by
  rw [← collect_removeSessionNode, h]
  rfl

theorem removeSessionNode_eq_some {sessionId : σ} {node root : TerminalPaneLayoutNode σ}
    (h : removeSessionNode sessionId node = some root) :
    collectTerminalPaneSessionIds root =
      (collectTerminalPaneSessionIds node).filter (· ≠ sessionId) := by
  rw [← collect_removeSessionNode, h]
  rfl

/-! ### Sound layouts -/

structure SoundLayout (layout : TerminalPaneLayoutSnapshot σ) : Prop where
  distinct : (collectTerminalPaneSessionIds layout.root).Nodup
  bounded : (collectTerminalPaneSessionIds layout.root).length ≤ maxTerminalPanes
  focused : layout.focusedSessionId ∈ collectTerminalPaneSessionIds layout.root

theorem find?_of_forall_mem {l l' : List σ} (h : ∀ a ∈ l, a ∈ l') :
    l.find? l'.contains = l.head? := by
  cases l with
  | nil => rfl
  | cons a l =>
      rw [List.find?_cons_of_pos (List.contains_iff_mem.mpr (h a List.mem_cons_self))]
      rfl

/-- What is removed, with the focus on the neighbour of the pane that had it. -/
theorem removeTerminalPane_spec {layout : TerminalPaneLayoutSnapshot σ} {sessionId : σ}
    (hnodup : (collectTerminalPaneSessionIds layout.root).Nodup)
    (hmem : sessionId ∈ collectTerminalPaneSessionIds layout.root) :
    (removeTerminalPane layout sessionId = none ∧
        (collectTerminalPaneSessionIds layout.root).filter (· ≠ sessionId) = []) ∨
      ∃ next, removeTerminalPane layout sessionId = some next ∧
        collectTerminalPaneSessionIds next.root =
          (collectTerminalPaneSessionIds layout.root).filter (· ≠ sessionId) ∧
        some next.focusedSessionId =
          if layout.focusedSessionId = sessionId then
            neighbour (collectTerminalPaneSessionIds layout.root) sessionId
          else some layout.focusedSessionId := by
  have hcontains : (!(collectTerminalPaneSessionIds layout.root).contains sessionId) = false := by
    rw [List.contains_iff_mem.mpr hmem]
    rfl
  unfold removeTerminalPane
  simp only [hcontains, Bool.false_eq_true, if_false]
  cases hroot : removeSessionNode sessionId layout.root with
  | none => exact .inl ⟨rfl, removeSessionNode_eq_none hroot⟩
  | some root =>
      have hnext := removeSessionNode_eq_some hroot
      refine .inr ⟨_, rfl, hnext, ?_⟩
      simp only
      by_cases hfocus : layout.focusedSessionId = sessionId
      · rw [if_pos hfocus, if_pos hfocus]
        cases hneighbour : neighbour (collectTerminalPaneSessionIds layout.root) sessionId with
        | none =>
            have hempty := neighbour_eq_none hmem hnodup hneighbour
            exact absurd (hnext.trans hempty) (collect_ne_nil root)
        | some c =>
            have hkept : ∀ a, a ∈ collectTerminalPaneSessionIds layout.root → a ≠ sessionId →
                a ∈ collectTerminalPaneSessionIds root := by
              intro a ha hne
              rw [hnext, List.mem_filter]
              exact ⟨ha, decide_eq_true hne⟩
            obtain ⟨left, right, hsplit, hleft⟩ := List.eq_append_cons_of_mem hmem
            rw [hsplit] at hneighbour hkept hnodup
            have hright : sessionId ∉ right :=
              (List.nodup_cons.mp (List.nodup_append.mp hnodup).2.1).1
            rw [neighbour_split hleft] at hneighbour
            rw [hsplit, idxOf_split hleft, List.take_left, ← List.drop_drop, List.drop_left,
              List.drop_one, List.tail_cons, find?_of_forall_mem, find?_of_forall_mem,
              List.head?_reverse, hneighbour]
            · rfl
            · intro a ha
              rw [List.mem_reverse] at ha
              exact hkept a (List.mem_append_left _ ha) fun heq => hleft (heq ▸ ha)
            · intro a ha
              exact hkept a (List.mem_append_right _ (List.mem_cons_of_mem _ ha))
                fun heq => hright (heq ▸ ha)
      · rw [if_neg hfocus, if_neg hfocus]

theorem SoundLayout.remove {layout next : TerminalPaneLayoutSnapshot σ} (h : SoundLayout layout)
    {sessionId : σ} (hnext : removeTerminalPane layout sessionId = some next) :
    SoundLayout next := by
  by_cases hmem : sessionId ∈ collectTerminalPaneSessionIds layout.root
  · rcases removeTerminalPane_spec h.distinct hmem with ⟨hnone, -⟩ | ⟨next', hsome, hids, hfocus⟩
    · rw [hnone] at hnext
      cases hnext
    · obtain rfl : next' = next := Option.some.inj (hsome.symm.trans hnext)
      refine ⟨?_, ?_, ?_⟩
      · rw [hids]
        exact h.distinct.filter _
      · rw [hids]
        exact (List.length_filter_le _ _).trans h.bounded
      · rw [hids]
        split_ifs at hfocus with hsame
        · exact neighbour_mem hmem h.distinct hfocus.symm
        · rw [Option.some.inj hfocus, List.mem_filter]
          exact ⟨h.focused, decide_eq_true hsame⟩
  · have hnot : (!(collectTerminalPaneSessionIds layout.root).contains sessionId) = true := by
      simpa using hmem
    unfold removeTerminalPane at hnext
    simp only [hnot, if_true] at hnext
    exact Option.some.inj hnext ▸ h

/-! ### Insertion -/

section Insertion

variable {new target : σ} {direction : TerminalPaneSplitDirection}
  {position : TerminalPaneSplitPosition} {idFactory : IdFactory} {newId : JsString}

theorem insertPane_pane_ok {id : JsString} {session : σ} {node' : TerminalPaneLayoutNode σ}
    {state state' : Insertion}
    (h : insertPane (.pane newId new) target direction position idFactory (.pane id session) state =
      .ok (node', state')) :
    (session ≠ target ∧ node' = .pane id session) ∨
      session = target ∧ ∃ splitId, node' = .split splitId direction (1 / 2)
        (if position = .before then .pane newId new else .pane id session)
        (if position = .before then .pane id session else .pane newId new) := by
  unfold insertPane at h
  by_cases hsession : session = target
  · rw [if_neg (not_not.mpr hsession)] at h
    cases hid : createNodeId "split" idFactory state.calls with
    | error error => rw [hid] at h; cases h
    | ok splitId =>
        rw [hid] at h
        exact .inr ⟨hsession, splitId, (congrArg Prod.fst (Except.ok.inj h)).symm⟩
  · rw [if_pos hsession] at h
    exact .inl ⟨hsession, (congrArg Prod.fst (Except.ok.inj h)).symm⟩

theorem insertPane_split_ok {id : JsString} {splitDirection : TerminalPaneSplitDirection}
    {ratio : ℚ} {first second node' : TerminalPaneLayoutNode σ} {state state' : Insertion}
    (h : insertPane (.pane newId new) target direction position idFactory
      (.split id splitDirection ratio first second) state = .ok (node', state')) :
    ∃ first' second' middle,
      insertPane (.pane newId new) target direction position idFactory first state =
        .ok (first', middle) ∧
      insertPane (.pane newId new) target direction position idFactory second middle =
        .ok (second', state') ∧
      node' = .split id splitDirection ratio first' second' := by
  rw [insertPane] at h
  cases hfirst : insertPane (.pane newId new) target direction position idFactory first state with
  | error error => rw [hfirst] at h; cases h
  | ok result =>
      obtain ⟨first', middle⟩ := result
      rw [hfirst] at h
      cases hsecond : insertPane (.pane newId new) target direction position idFactory second
          middle with
      | error error => simp only [bind, Except.bind, hsecond] at h; cases h
      | ok result =>
          obtain ⟨second', last⟩ := result
          simp only [bind, Except.bind, hsecond] at h
          cases h
          exact ⟨first', second', middle, rfl, hsecond, rfl⟩

/-- A session beside the target. -/
def besideTarget (new target : σ) (position : TerminalPaneSplitPosition) (session : σ) : List σ :=
  if session = target then if position = .before then [new, session] else [session, new]
  else [session]

theorem collect_insertPane {node node' : TerminalPaneLayoutNode σ} {state state' : Insertion}
    (h : insertPane (.pane newId new) target direction position idFactory node state =
      .ok (node', state')) :
    collectTerminalPaneSessionIds node' =
      (collectTerminalPaneSessionIds node).flatMap (besideTarget new target position) := by
  induction node generalizing node' state state' with
  | pane id session =>
      rcases insertPane_pane_ok h with ⟨hsession, rfl⟩ | ⟨hsession, splitId, rfl⟩
      · simp [collectTerminalPaneSessionIds, besideTarget, hsession]
      · cases position <;> simp [collectTerminalPaneSessionIds, besideTarget, hsession]
  | split id splitDirection ratio first second ihf ihs =>
      obtain ⟨first', second', middle, hfirst, hsecond, rfl⟩ := insertPane_split_ok h
      rw [collectTerminalPaneSessionIds, ihf hfirst, ihs hsecond, collectTerminalPaneSessionIds,
        List.flatMap_append]

/-- Removing what was inserted restores the tree. -/
theorem removeSessionNode_insertPane {node node' : TerminalPaneLayoutNode σ}
    {state state' : Insertion} (hnew : new ∉ collectTerminalPaneSessionIds node)
    (h : insertPane (.pane newId new) target direction position idFactory node state =
      .ok (node', state')) : removeSessionNode new node' = some node := by
  induction node generalizing node' state state' with
  | pane id session =>
      have hne : session ≠ new := fun heq => hnew (List.mem_singleton.mpr heq.symm)
      rcases insertPane_pane_ok h with ⟨-, rfl⟩ | ⟨-, splitId, rfl⟩
      · simp [removeSessionNode, hne]
      · cases position <;> simp [removeSessionNode, hne]
  | split id splitDirection ratio first second ihf ihs =>
      obtain ⟨first', second', middle, hfirst, hsecond, rfl⟩ := insertPane_split_ok h
      rw [collectTerminalPaneSessionIds, List.mem_append, not_or] at hnew
      simp only [removeSessionNode, ihf hnew.1 hfirst, ihs hnew.2 hsecond]

theorem flatMap_besideTarget_of_notMem {l : List σ} (h : target ∉ l) :
    l.flatMap (besideTarget new target position) = l := by
  induction l with
  | nil => rfl
  | cons session l ih =>
      rw [List.mem_cons, not_or] at h
      rw [List.flatMap_cons, ih h.2, besideTarget, if_neg fun heq => h.1 heq.symm]
      rfl

/-- One session more, wherever the target stands. -/
theorem flatMap_besideTarget_perm {l : List σ} (hnodup : l.Nodup) (h : target ∈ l) :
    (l.flatMap (besideTarget new target position)).Perm (new :: l) := by
  obtain ⟨left, right, rfl, hleft⟩ := List.eq_append_cons_of_mem h
  have hright : target ∉ right := (List.nodup_cons.mp (List.nodup_append.mp hnodup).2.1).1
  rw [List.flatMap_append, List.flatMap_cons, flatMap_besideTarget_of_notMem hleft,
    flatMap_besideTarget_of_notMem hright, besideTarget, if_pos rfl]
  split_ifs
  · exact List.perm_middle
  · exact ((List.Perm.swap new target right).append_left left).trans List.perm_middle

theorem insertPane_perm {node node' : TerminalPaneLayoutNode σ} {state state' : Insertion}
    (hnodup : (collectTerminalPaneSessionIds node).Nodup)
    (htarget : target ∈ collectTerminalPaneSessionIds node)
    (h : insertPane (.pane newId new) target direction position idFactory node state =
      .ok (node', state')) :
    (collectTerminalPaneSessionIds node').Perm (new :: collectTerminalPaneSessionIds node) := by
  rw [collect_insertPane h]
  exact flatMap_besideTarget_perm hnodup htarget

/-- What a successful insertion has checked and done. -/
theorem insertTerminalPane_ok {layout next : TerminalPaneLayoutSnapshot σ}
    {direction : Option TerminalPaneSplitDirection} {position : Option TerminalPaneSplitPosition}
    (h : insertTerminalPane layout target new direction position idFactory = .ok next) :
    target ∈ collectTerminalPaneSessionIds layout.root ∧
      new ∉ collectTerminalPaneSessionIds layout.root ∧
      (collectTerminalPaneSessionIds layout.root).length < maxTerminalPanes ∧
      next.focusedSessionId = layout.focusedSessionId ∧
      ∃ newId direction position state state', createNodeId "pane" idFactory 0 = .ok newId ∧
        insertPane (.pane newId new) target direction position idFactory layout.root state =
          .ok (next.root, state') := by
  unfold insertTerminalPane at h
  simp only at h
  split_ifs at h with htarget hnew hfull
  rw [Bool.not_eq_true', Bool.not_eq_false, List.contains_iff_mem] at htarget
  rw [List.contains_iff_mem] at hnew
  refine ⟨htarget, hnew, Nat.not_le.mp hfull, ?_⟩
  rcases direction with _ | direction
  · cases h
  · rcases position with _ | position
    · cases h
    · simp only [insertAtTarget] at h
      cases hid : createNodeId "pane" idFactory 0 with
      | error error => rw [hid] at h; cases h
      | ok id =>
          rw [hid] at h
          cases hinsert : insertPane (.pane id new) target direction position idFactory layout.root
              ⟨1, false⟩ with
          | error error => simp only [bind, Except.bind, hinsert] at h; cases h
          | ok result =>
              obtain ⟨root, state'⟩ := result
              simp only [bind, Except.bind, hinsert] at h
              split_ifs at h with hreplaced
              cases h
              exact ⟨rfl, id, direction, position, _, _, rfl, hinsert⟩

theorem SoundLayout.insert {layout next : TerminalPaneLayoutSnapshot σ} (h : SoundLayout layout)
    {direction : Option TerminalPaneSplitDirection} {position : Option TerminalPaneSplitPosition}
    (hnext : insertTerminalPane layout target new direction position idFactory = .ok next) :
    SoundLayout next := by
  obtain ⟨htarget, hnew, hlength, hfocus, newId, direction, position, state, state', -, hinsert⟩ :=
    insertTerminalPane_ok hnext
  have hperm := insertPane_perm h.distinct htarget hinsert
  refine ⟨?_, ?_, ?_⟩
  · rw [hperm.nodup_iff]
    exact List.nodup_cons.mpr ⟨hnew, h.distinct⟩
  · rw [hperm.length_eq]
    exact hlength
  · rw [hfocus, hperm.mem_iff]
    exact List.mem_cons_of_mem _ h.focused

/-- **A pane that was just inserted is removed without a trace.** -/
theorem removeTerminalPane_insert {layout next : TerminalPaneLayoutSnapshot σ}
    (h : SoundLayout layout) {direction : Option TerminalPaneSplitDirection}
    {position : Option TerminalPaneSplitPosition}
    (hnext : insertTerminalPane layout target new direction position idFactory = .ok next) :
    removeTerminalPane next new = some layout := by
  obtain ⟨htarget, hnew, -, hfocus, newId, direction, position, state, state', -, hinsert⟩ :=
    insertTerminalPane_ok hnext
  have hperm := insertPane_perm h.distinct htarget hinsert
  have hcontains : (!(collectTerminalPaneSessionIds next.root).contains new) = false := by
    rw [List.contains_iff_mem.mpr (hperm.mem_iff.mpr List.mem_cons_self)]
    rfl
  have hfocused : ¬ layout.focusedSessionId = new := fun heq => hnew (heq ▸ h.focused)
  unfold removeTerminalPane
  simp only [hcontains, Bool.false_eq_true, if_false, removeSessionNode_insertPane hnew hinsert,
    if_neg hfocused, Option.map_some, hfocus]

end Insertion

/-! ### Focus, ratios -/

theorem SoundLayout.focus {layout next : TerminalPaneLayoutSnapshot σ} (h : SoundLayout layout)
    {sessionId : σ} (hnext : focusTerminalPane layout sessionId = .ok next) : SoundLayout next := by
  unfold focusTerminalPane at hnext
  split_ifs at hnext with hmissing hsame
  · exact Except.ok.inj hnext ▸ h
  · obtain rfl := Except.ok.inj hnext
    rw [Bool.not_eq_true', Bool.not_eq_false, terminalPaneLayoutContains, List.contains_iff_mem]
      at hmissing
    exact ⟨h.distinct, h.bounded, hmissing⟩

omit [DecidableEq σ] in
theorem collect_patchRatio (splitId : JsString) (ratio : ℚ) (node : TerminalPaneLayoutNode σ) :
    collectTerminalPaneSessionIds (patchRatio splitId ratio node).1 =
      collectTerminalPaneSessionIds node := by
  induction node with
  | pane id sessionId => rfl
  | split id direction splitRatio first second ihf ihs =>
      unfold patchRatio
      split_ifs
      · rfl
      · simp only [collectTerminalPaneSessionIds, ihf, ihs]

omit [DecidableEq σ] in
theorem SoundLayout.resize {layout next : TerminalPaneLayoutSnapshot σ} (h : SoundLayout layout)
    {splitId : JsString} {ratio : Option ℚ}
    (hnext : resizeTerminalPaneSplit layout splitId ratio = .ok next) : SoundLayout next := by
  unfold resizeTerminalPaneSplit at hnext
  cases hclamp : clampRatio ratio with
  | error error => rw [hclamp] at hnext; cases hnext
  | ok normalized =>
      rw [hclamp] at hnext
      simp only [bind, Except.bind] at hnext
      split_ifs at hnext
      obtain rfl := Except.ok.inj hnext
      have hids := collect_patchRatio splitId normalized layout.root
      exact ⟨hids ▸ h.distinct, hids ▸ h.bounded, hids ▸ h.focused⟩

/-! ### Pruning -/

/-- What is left after the rest of the loop. -/
def stays (alive live : σ → Bool) (rest : List σ) (session : σ) : Bool :=
  alive session && (live session || !rest.contains session)

theorem prunePanes_none (live : σ → Bool) (rest : List σ) : prunePanes live rest none = none := by
  induction rest with
  | nil => rfl
  | cons session rest ih =>
      rw [prunePanes, Option.bind_none, ite_self]
      exact ih

/-- The loop removes the dead sessions that are left, and the focus is where it is nearest. -/
theorem prunePanes_spec {ids rest : List σ} {start : σ} (hids : ids.Nodup) (hstart : start ∈ ids)
    (live : σ → Bool) {alive : σ → Bool} (hrest : rest.Nodup)
    (halive : ∀ session ∈ rest, session ∈ ids.filter alive)
    {layout : TerminalPaneLayoutSnapshot σ}
    (hlayout : collectTerminalPaneSessionIds layout.root = ids.filter alive)
    (hfocus : nearest alive ids start = some layout.focusedSessionId) :
    (prunePanes live rest (some layout) = none ∧ ids.filter (stays alive live rest) = []) ∨
      ∃ next, prunePanes live rest (some layout) = some next ∧
        collectTerminalPaneSessionIds next.root = ids.filter (stays alive live rest) ∧
        nearest (stays alive live rest) ids start = some next.focusedSessionId := by
  induction rest generalizing alive layout with
  | nil =>
      have hall : stays alive live [] = alive := by
        funext session
        simp [stays]
      rw [hall]
      exact .inr ⟨layout, rfl, hlayout, hfocus⟩
  | cons session rest ih =>
      obtain ⟨hfresh, hrest⟩ := List.nodup_cons.mp hrest
      cases hlive : live session with
      | true =>
          have hstays : stays alive live (session :: rest) = stays alive live rest := by
            funext other
            by_cases hother : other = session
            · simp [stays, hother, hlive]
            · simp [stays, hother]
          rw [hstays, prunePanes, if_pos hlive]
          exact ih hrest (fun other hmem => halive other (List.mem_cons_of_mem _ hmem)) hlayout
            hfocus
      | false =>
          have hstays :
              stays alive live (session :: rest) = stays (without alive session) live rest := by
            funext other
            by_cases hother : other = session
            · simp [stays, without, hother, hlive]
            · simp [stays, without, hother]
          have hmem : session ∈ collectTerminalPaneSessionIds layout.root := by
            rw [hlayout]
            exact halive session List.mem_cons_self
          have hnodup : (collectTerminalPaneSessionIds layout.root).Nodup := by
            rw [hlayout]
            exact hids.filter _
          rw [hstays, prunePanes, if_neg (by rw [hlive]; exact Bool.false_ne_true),
            Option.bind_some]
          rcases removeTerminalPane_spec hnodup hmem with
            ⟨hnone, hempty⟩ | ⟨next, hsome, hleft, hmoved⟩
          · rw [hnone, prunePanes_none]
            refine .inl ⟨rfl, List.filter_eq_nil_iff.mpr fun other hmem hother => ?_⟩
            rw [hlayout, ← filter_without, List.filter_eq_nil_iff] at hempty
            rw [stays, Bool.and_eq_true] at hother
            exact hempty other hmem hother.1
          · rw [hsome]
            refine ih hrest (fun other hother => ?_) ?_ ?_
            · rw [filter_without, List.mem_filter]
              refine ⟨halive other (List.mem_cons_of_mem _ hother), decide_eq_true ?_⟩
              rintro rfl
              exact hfresh hother
            · rw [hleft, hlayout, filter_without]
            · rw [nearest_remove hids hstart hfocus, hmoved, hlayout]

/-- **Pruning keeps the live panes in their order**, with the focus where it was, else at the
nearest live pane to the right, else to the left. -/
theorem pruneTerminalPaneLayout_spec {layout : TerminalPaneLayoutSnapshot σ}
    (h : SoundLayout layout) (live : σ → Bool) :
    (pruneTerminalPaneLayout layout live = none ∧
        (collectTerminalPaneSessionIds layout.root).filter live = []) ∨
      ∃ next, pruneTerminalPaneLayout layout live = some next ∧
        collectTerminalPaneSessionIds next.root =
          (collectTerminalPaneSessionIds layout.root).filter live ∧
        nearest live (collectTerminalPaneSessionIds layout.root) layout.focusedSessionId =
          some next.focusedSessionId := by
  have hstays : ∀ session ∈ collectTerminalPaneSessionIds layout.root,
      stays (fun _ => true) live (collectTerminalPaneSessionIds layout.root) session =
        live session := by
    intro session hmem
    simp [stays, hmem]
  have hall : collectTerminalPaneSessionIds layout.root =
      (collectTerminalPaneSessionIds layout.root).filter fun _ => true := by simp
  have hspec := prunePanes_spec h.distinct h.focused live h.distinct
    (fun session hmem => by simpa using hmem) hall (if_pos rfl)
  rwa [List.filter_congr hstays, nearest_congr h.focused hstays] at hspec

theorem SoundLayout.prune {layout next : TerminalPaneLayoutSnapshot σ} (h : SoundLayout layout)
    {live : σ → Bool} (hnext : pruneTerminalPaneLayout layout live = some next) :
    SoundLayout next := by
  rcases pruneTerminalPaneLayout_spec h live with ⟨hnone, -⟩ | ⟨next', hsome, hids, hfocus⟩
  · rw [hnone] at hnext
    cases hnext
  · obtain rfl : next' = next := Option.some.inj (hsome.symm.trans hnext)
    refine ⟨hids ▸ h.distinct.filter _, ?_, ?_⟩
    · rw [hids]
      exact (List.length_filter_le _ _).trans h.bounded
    · rw [hids]
      exact nearest_mem h.focused hfocus

/-! ### Geometry -/

theorem setPane_of_fresh {sessionId : σ} {rect : Rect ℚ} {panes : List (σ × Rect ℚ)}
    (h : sessionId ∉ panes.map Prod.fst) :
    setPane sessionId rect panes = panes ++ [(sessionId, rect)] := by
  induction panes with
  | nil => rfl
  | cons entry rest ih =>
      rw [List.map_cons, List.mem_cons, not_or] at h
      rw [setPane, if_neg fun heq => h.1 heq.symm, ih h.2]
      rfl

theorem clampRatio_inside (ratio : ℚ) :
    ∃ t, clampRatio (some ratio) = .ok t ∧ 0 < t ∧ t < 1 := by
  refine ⟨_, rfl, ?_, ?_⟩
  · rw [lt_min_iff, lt_max_iff]
    exact ⟨by norm_num [absoluteMaxTerminalPaneRatio],
      .inl (by norm_num [absoluteMinTerminalPaneRatio])⟩
  · refine (min_le_left _ _).trans_lt ?_
    norm_num [absoluteMaxTerminalPaneRatio]

/-- The leaves of a tree tile its rectangle, in their order. -/
theorem visitPanes_tiles {node : TerminalPaneLayoutNode σ} {rect : Rect ℚ} (hrect : rect.Positive)
    {geometry : TerminalPaneGeometry σ}
    (hfresh : (geometry.panes.map Prod.fst ++ collectTerminalPaneSessionIds node).Nodup) :
    ∃ result tiles, visitPanes node rect geometry = .ok result ∧
      result.panes = geometry.panes ++ tiles ∧
      tiles.map Prod.fst = collectTerminalPaneSessionIds node ∧
      Rect.Tiles (tiles.map Prod.snd) rect := by
  induction node generalizing rect geometry with
  | pane id sessionId =>
      have hnew : sessionId ∉ geometry.panes.map Prod.fst := fun hmem =>
        (List.nodup_append.mp hfresh).2.2 _ hmem _ List.mem_cons_self rfl
      exact ⟨_, [(sessionId, rect)], rfl, setPane_of_fresh hnew, rfl, Rect.Tiles.self hrect⟩
  | split id direction ratio first second ihf ihs =>
      obtain ⟨t, hclamp, ht, ht'⟩ := clampRatio_inside ratio
      rw [collectTerminalPaneSessionIds, ← List.append_assoc] at hfresh
      -- Both children, in the two parts that the direction chooses.
      have hchildren : ∀ (handles : List TerminalPaneSplitHandle) (a b : Rect ℚ), a.Positive →
          b.Positive → (∀ rects rects', Rect.Tiles rects a → Rect.Tiles rects' b →
            Rect.Tiles (rects ++ rects') rect) →
          ∃ result tiles, ((visitPanes first a ⟨geometry.panes, handles⟩).bind fun geometry =>
              visitPanes second b geometry) = .ok result ∧
            result.panes = geometry.panes ++ tiles ∧
            tiles.map Prod.fst =
              collectTerminalPaneSessionIds first ++ collectTerminalPaneSessionIds second ∧
            Rect.Tiles (tiles.map Prod.snd) rect := by
        intro handles a b ha hb htiles
        obtain ⟨middle, tiles, hmiddle, hpanes, hkeys, hfirst⟩ :=
          @ihf a ha ⟨geometry.panes, handles⟩ (hfresh.sublist (List.sublist_append_left _ _))
        change middle.panes = geometry.panes ++ tiles at hpanes
        obtain ⟨result, tiles', hresult, hpanes', hkeys', hsecond⟩ :=
          ihs hb (by rwa [hpanes, List.map_append, hkeys])
        refine ⟨result, tiles ++ tiles', ?_, ?_, ?_, ?_⟩
        · rw [hmiddle]
          exact hresult
        · rw [hpanes', hpanes, List.append_assoc]
        · rw [List.map_append, hkeys, hkeys']
        · rw [List.map_append]
          exact htiles _ _ hfirst hsecond
      cases direction with
      | vertical =>
          obtain ⟨hleft, hright⟩ := Rect.positive_left ht ht' hrect
          rw [visitPanes, hclamp]
          exact hchildren _ _ _ hleft hright fun _ _ => Rect.Tiles.beside ht ht' hrect
      | horizontal =>
          obtain ⟨hupper, hlower⟩ := Rect.positive_upper ht ht' hrect
          rw [visitPanes, hclamp]
          exact hchildren _ _ _ hupper hlower fun _ _ => Rect.Tiles.stacked ht ht' hrect

/-! ### Calls -/

omit [DecidableEq σ] in
theorem SoundLayout.create {sessionId : σ} {idFactory : IdFactory}
    {layout : TerminalPaneLayoutSnapshot σ}
    (h : createTerminalPaneLayout sessionId idFactory = .ok layout) : SoundLayout layout := by
  unfold createTerminalPaneLayout at h
  cases hid : createNodeId "pane" idFactory 0 with
  | error error => rw [hid] at h; cases h
  | ok id =>
      rw [hid] at h
      obtain rfl := Except.ok.inj h
      have hone : 1 ≤ maxTerminalPanes := by decide
      exact ⟨List.nodup_singleton _, hone, List.mem_singleton.mpr rfl⟩

theorem map_some_ok {α : Type} {result : Throws α} {next : Option α}
    (h : result.map some = .ok next) : ∃ value, result = .ok value ∧ next = some value := by
  cases result with
  | error error => cases h
  | ok value => exact ⟨value, rfl, (Except.ok.inj h).symm⟩

/-- A call keeps the layout sound. -/
theorem SoundLayout.afterCall {layout next : TerminalPaneLayoutSnapshot σ} (h : SoundLayout layout)
    {call : PaneCall σ} (hnext : Terminal.afterCall layout call = some next) :
    SoundLayout next := by
  unfold Terminal.afterCall at hnext
  cases hresult : call.result layout with
  | error error =>
      rw [hresult] at hnext
      exact Option.some.inj hnext ▸ h
  | ok result =>
      rw [hresult] at hnext
      change result = some next at hnext
      subst hnext
      cases call with
      | split target new direction position idFactory =>
          obtain ⟨value, hvalue, hsome⟩ := map_some_ok hresult
          exact Option.some.inj hsome ▸ h.insert hvalue
      | focus sessionId =>
          obtain ⟨value, hvalue, hsome⟩ := map_some_ok hresult
          exact Option.some.inj hsome ▸ h.focus hvalue
      | resize splitId ratio =>
          obtain ⟨value, hvalue, hsome⟩ := map_some_ok hresult
          exact Option.some.inj hsome ▸ h.resize hvalue
      | remove sessionId => exact h.remove (Except.ok.inj hresult)
      | prune live => exact h.prune (Except.ok.inj hresult)

/-- Calls keep the layout sound. -/
theorem SoundLayout.afterCalls {layout next : TerminalPaneLayoutSnapshot σ} (h : SoundLayout layout)
    {calls : List (PaneCall σ)} (hnext : Terminal.afterCalls layout calls = some next) :
    SoundLayout next := by
  induction calls generalizing layout with
  | nil => exact Option.some.inj hnext ▸ h
  | cons call calls ih =>
      obtain ⟨middle, hmiddle, hrest⟩ := Option.bind_eq_some_iff.mp hnext
      exact ih (h.afterCall hmiddle) hrest

/-- The laws of a layout. -/
structure PaneLaws (layout : TerminalPaneLayoutSnapshot σ) : Prop where
  sound : SoundLayout layout
  /-- A call that throws changes nothing. -/
  failing : ∀ call error, PaneCall.result layout call = .error error →
    Terminal.afterCall layout call = some layout
  /-- The rectangles of the panes, in their order, tile the unit square. -/
  geometry : ∃ geometry, computeTerminalPaneGeometry layout = .ok geometry ∧
    geometry.panes.map Prod.fst = collectTerminalPaneSessionIds layout.root ∧
    Rect.Tiles (geometry.panes.map Prod.snd) unitSquare
  undone : ∀ target new direction position idFactory next,
    insertTerminalPane layout target new direction position idFactory = .ok next →
    removeTerminalPane next new = some layout
  pruned : ∀ live next, pruneTerminalPaneLayout layout live = some next →
    collectTerminalPaneSessionIds next.root =
        (collectTerminalPaneSessionIds layout.root).filter live ∧
      nearest live (collectTerminalPaneSessionIds layout.root) layout.focusedSessionId =
        some next.focusedSessionId
  /-- Pruning leaves no layout only where it leaves no pane. -/
  pruned_away : ∀ live, pruneTerminalPaneLayout layout live = none ↔
    (collectTerminalPaneSessionIds layout.root).filter live = []

theorem SoundLayout.laws {layout : TerminalPaneLayoutSnapshot σ} (h : SoundLayout layout) :
    PaneLaws layout where
  sound := h
  failing := fun call error herror => by rw [Terminal.afterCall, herror]
  geometry := by
    obtain ⟨geometry, tiles, hok, hpanes, hkeys, htiles⟩ :=
      @visitPanes_tiles _ _ layout.root unitSquare ⟨one_pos, one_pos⟩ ⟨[], []⟩ h.distinct
    rw [List.nil_append] at hpanes
    exact ⟨geometry, hok, hpanes ▸ hkeys, hpanes ▸ htiles⟩
  undone := fun _ _ _ _ _ _ hnext => removeTerminalPane_insert h hnext
  pruned := fun live next hnext => by
    rcases pruneTerminalPaneLayout_spec h live with ⟨hnone, -⟩ | ⟨next', hsome, hids, hfocus⟩
    · rw [hnone] at hnext
      cases hnext
    · obtain rfl : next' = next := Option.some.inj (hsome.symm.trans hnext)
      exact ⟨hids, hfocus⟩
  pruned_away := fun live => by
    rcases pruneTerminalPaneLayout_spec h live with ⟨hnone, hempty⟩ | ⟨next, hsome, hids, -⟩
    · exact ⟨fun _ => hempty, fun _ => hnone⟩
    · rw [hsome]
      exact ⟨nofun, fun hempty => absurd (hids.trans hempty) (collect_ne_nil next.root)⟩

/-- **The pane tree**, in every layout that calls lead to. -/
theorem paneLaws_of_calls {sessionId : σ} {idFactory : IdFactory}
    {created layout : TerminalPaneLayoutSnapshot σ} {calls : List (PaneCall σ)}
    (hcreated : createTerminalPaneLayout sessionId idFactory = .ok created)
    (hcalls : Terminal.afterCalls created calls = some layout) : PaneLaws layout :=
  ((SoundLayout.create hcreated).afterCalls hcalls).laws

/-- Two panes beside each other. -/
def pairedLayout : TerminalPaneLayoutSnapshot ℕ :=
  ⟨.split (jsString "split-a") .vertical (1 / 2) (.pane (jsString "pane-a") 1)
    (.pane (jsString "pane-a") 2), 1⟩

theorem paneLaws_pairedLayout : PaneLaws pairedLayout := by
  have hcreated : createTerminalPaneLayout 1 (fun _ => some (jsString "a")) =
      .ok ⟨.pane (jsString "pane-a") 1, 1⟩ := by decide
  have hcalls : afterCalls ⟨.pane (jsString "pane-a") 1, 1⟩
      [.split 1 2 (some .vertical) (some .after) fun _ => some (jsString "a")] =
        some pairedLayout := by decide +kernel
  exact paneLaws_of_calls hcreated hcalls

end Netcatty.Terminal
