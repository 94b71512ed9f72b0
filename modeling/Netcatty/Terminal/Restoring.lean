import Mathlib.Data.Nat.Digits.Defs
import Netcatty.Terminal.RestoredSnapshots

/-! # Layouts of the workspace in snapshots

What the operations on panes lead to can be stored: its ratios are within the bounds and its ids
are not empty.  A created snapshot keeps of it the panes whose sessions are stored, and they are
those that `pruneTerminalPaneLayout` keeps (`sessionRestore_laws`). -/

namespace Netcatty.Terminal

open Json (NumberText Value units)

section Panes

variable {σ : Type}

/-! ### What every layout has -/

/-- Ratios within the bounds, and ids that are not empty. -/
def NodesHold : TerminalPaneLayoutNode σ → Prop
  | .pane id _ => id ≠ []
  | .split id _ ratio first second =>
      id ≠ [] ∧ (minPaneRatio ≤ ratio ∧ ratio ≤ maxPaneRatio) ∧ NodesHold first ∧ NodesHold second

theorem nodesHold_iff {node : TerminalPaneLayoutNode σ} :
    NodesHold node ↔ RatiosInside node ∧ ∀ id ∈ paneNodeIds node, id ≠ [] := by
  induction node with
  | pane id sessionId => simp [NodesHold, RatiosInside, paneNodeIds]
  | split id direction ratio first second ihFirst ihSecond =>
      simp only [NodesHold, RatiosInside, paneNodeIds, ihFirst, ihSecond, List.forall_mem_cons,
        List.mem_append, or_imp, forall_and]
      constructor
      · rintro ⟨hid, ⟨hlow, hhigh⟩, ⟨hfirst, hids⟩, hsecond, hids'⟩
        exact ⟨⟨hlow, hhigh, hfirst, hsecond⟩, hid, hids, hids'⟩
      · rintro ⟨⟨hlow, hhigh, hfirst, hsecond⟩, hid, hids, hids'⟩
        exact ⟨hid, ⟨hlow, hhigh⟩, ⟨hfirst, hids⟩, hsecond, hids'⟩

theorem NodesHold.pruneNode {keep : σ → Bool} {node root : TerminalPaneLayoutNode σ}
    (h : NodesHold node) (hroot : Terminal.pruneNode keep node = some root) : NodesHold root := by
  obtain ⟨hids, hratios⟩ := pruneNode_inherits hroot
  obtain ⟨hinside, hfilled⟩ := nodesHold_iff.mp h
  exact nodesHold_iff.mpr ⟨hratios hinside, fun id hid => hfilled id (hids.subset hid)⟩

theorem createNodeId_ne_nil {affix : String} {idFactory : IdFactory} {calls : ℕ} {id : JsString}
    (h : createNodeId affix idFactory calls = .ok id) : id ≠ [] := by
  unfold createNodeId at h
  split at h
  · cases h
  · split_ifs at h
    cases h
    simp [jsString]

theorem NodesHold.patchRatio {splitId : JsString} {ratio : ℚ} {node : TerminalPaneLayoutNode σ}
    (h : NodesHold node) (hratio : minPaneRatio ≤ ratio ∧ ratio ≤ maxPaneRatio) :
    NodesHold (Terminal.patchRatio splitId ratio node).1 := by
  induction node with
  | pane id sessionId => exact h
  | split id direction splitRatio first second ihFirst ihSecond =>
      obtain ⟨hid, hinside, hfirst, hsecond⟩ := h
      unfold Terminal.patchRatio
      split_ifs
      · exact ⟨hid, hratio, hfirst, hsecond⟩
      · exact ⟨hid, hinside, ihFirst hfirst, ihSecond hsecond⟩

variable [DecidableEq σ]

/-! ### Removal is pruning -/

theorem removeSessionNode_eq_pruneNode (sessionId : σ) (node : TerminalPaneLayoutNode σ) :
    removeSessionNode sessionId node = pruneNode (· ≠ sessionId) node := by
  induction node with
  | pane id session =>
      unfold removeSessionNode pruneNode
      by_cases h : session = sessionId
      · simp [h]
      · simp [h]
  | split id direction ratio first second ihFirst ihSecond =>
      rewrite [removeSessionNode, pruneNode, ihFirst, ihSecond]
      cases pruneNode (· ≠ sessionId) first with
      | none => rfl
      | some first' =>
          cases pruneNode (· ≠ sessionId) second with
          | none => rfl
          | some second' => rfl

omit [DecidableEq σ] in
theorem pruneNode_congr {keep keep' : σ → Bool} {node : TerminalPaneLayoutNode σ}
    (h : ∀ sessionId ∈ collectTerminalPaneSessionIds node, keep sessionId = keep' sessionId) :
    pruneNode keep node = pruneNode keep' node := by
  induction node with
  | pane id sessionId => rw [pruneNode, pruneNode, h sessionId List.mem_cons_self]
  | split id direction ratio first second ihFirst ihSecond =>
      rw [collectTerminalPaneSessionIds] at h
      rw [pruneNode, pruneNode, ihFirst fun sessionId hs => h sessionId (List.mem_append_left _ hs),
        ihSecond fun sessionId hs => h sessionId (List.mem_append_right _ hs)]

theorem removeTerminalPane_root (layout : TerminalPaneLayoutSnapshot σ) (sessionId : σ) :
    (removeTerminalPane layout sessionId).map TerminalPaneLayoutSnapshot.root =
      pruneNode (· ≠ sessionId) layout.root := by
  unfold removeTerminalPane
  dsimp only
  split
  · next hmissing =>
    rw [Option.map_some, pruneNode_all]
    intro session hsession
    refine decide_eq_true fun heq => ?_
    rw [Bool.not_eq_true', ← heq, List.contains_iff_mem.mpr hsession] at hmissing
    cases hmissing
  · rw [← removeSessionNode_eq_pruneNode, Option.map_map]
    exact Option.map_id'

/-- The sessions that the rest of the loop leaves. -/
theorem prunePanes_root (live : σ → Bool) (rest : List σ)
    (next : Option (TerminalPaneLayoutSnapshot σ)) :
    (prunePanes live rest next).map TerminalPaneLayoutSnapshot.root =
      (next.map TerminalPaneLayoutSnapshot.root).bind
        (pruneNode fun session => live session || !rest.contains session) := by
  induction rest generalizing next with
  | nil =>
      cases next with
      | none => rfl
      | some layout =>
          rw [prunePanes, Option.map_some, Option.bind_some, pruneNode_all]
          simp
  | cons session rest ih =>
      rw [prunePanes, ih]
      cases next with
      | none =>
          rw [Option.bind_none, ite_self]
          rfl
      | some layout =>
          cases hlive : live session with
          | true =>
              rw [if_pos rfl, Option.map_some, Option.bind_some, Option.bind_some]
              apply pruneNode_congr
              intro other _
              by_cases hother : other = session
              · simp [hother, hlive]
              · simp [hother]
          | false =>
              rw [if_neg Bool.false_ne_true, Option.bind_some, removeTerminalPane_root,
                Option.map_some, Option.bind_some, pruneNode_bind]
              apply pruneNode_congr
              intro other _
              by_cases hother : other = session
              · simp [hother, hlive]
              · simp [hother]

/-- **Pruning by removals** is the one recursion. -/
theorem pruneTerminalPaneLayout_root (layout : TerminalPaneLayoutSnapshot σ) (live : σ → Bool) :
    (pruneTerminalPaneLayout layout live).map TerminalPaneLayoutSnapshot.root =
      pruneNode live layout.root := by
  rw [pruneTerminalPaneLayout, prunePanes_root, Option.map_some, Option.bind_some]
  apply pruneNode_congr
  intro session hsession
  simp [hsession]

/-! ### Calls -/

section Insertion

variable {new target : σ} {direction : TerminalPaneSplitDirection}
  {position : TerminalPaneSplitPosition} {idFactory : IdFactory} {newId : JsString}

theorem NodesHold.insertPane (hnew : newId ≠ []) {node node' : TerminalPaneLayoutNode σ}
    {state state' : Insertion} (hnode : NodesHold node)
    (h : Terminal.insertPane (.pane newId new) target direction position idFactory node state =
      .ok (node', state')) : NodesHold node' := by
  induction node generalizing node' state state' with
  | pane id session =>
      have hhalf : minPaneRatio ≤ 1 / 2 ∧ (1 / 2 : ℚ) ≤ maxPaneRatio := by
        unfold minPaneRatio maxPaneRatio
        norm_num
      unfold Terminal.insertPane at h
      split_ifs at h with hsession hposition
      · cases h
        exact hnode
      · cases hid : createNodeId "split" idFactory state.calls with
        | error error =>
            rw [hid] at h
            cases h
        | ok splitId =>
            rw [hid] at h
            cases h
            exact ⟨createNodeId_ne_nil hid, hhalf, hnew, hnode⟩
      · cases hid : createNodeId "split" idFactory state.calls with
        | error error =>
            rw [hid] at h
            cases h
        | ok splitId =>
            rw [hid] at h
            cases h
            exact ⟨createNodeId_ne_nil hid, hhalf, hnode, hnew⟩
  | split id splitDirection ratio first second ihFirst ihSecond =>
      obtain ⟨hid, hinside, hfirst, hsecond⟩ := hnode
      obtain ⟨first', second', middle, hfirst', hsecond', rfl⟩ := insertPane_split_ok h
      exact ⟨hid, hinside, ihFirst hfirst hfirst', ihSecond hsecond hsecond'⟩

end Insertion

omit [DecidableEq σ] in
theorem NodesHold.resize {layout next : TerminalPaneLayoutSnapshot σ} (h : NodesHold layout.root)
    {splitId : JsString} {ratio : Option ℚ}
    (hnext : resizeTerminalPaneSplit layout splitId ratio = .ok next) : NodesHold next.root := by
  unfold resizeTerminalPaneSplit at hnext
  cases ratio with
  | none => cases hnext
  | some ratio =>
      have hbounds : minPaneRatio ≤ absoluteMaxTerminalPaneRatio := by
        norm_num [minPaneRatio, absoluteMaxTerminalPaneRatio]
      rw [clampRatio] at hnext
      simp only [bind, Except.bind] at hnext
      split_ifs at hnext
      obtain rfl := Except.ok.inj hnext
      exact h.patchRatio ⟨le_min hbounds (le_max_left _ _), min_le_left _ _⟩

omit [DecidableEq σ] in
theorem root_of_map {next : Option (TerminalPaneLayoutSnapshot σ)}
    {layout : TerminalPaneLayoutSnapshot σ} {root : Option (TerminalPaneLayoutNode σ)}
    (hroot : next.map TerminalPaneLayoutSnapshot.root = root) (hnext : next = some layout) :
    root = some layout.root := by
  rw [← hroot, hnext]
  rfl

theorem NodesHold.afterCall {layout next : TerminalPaneLayoutSnapshot σ}
    (h : NodesHold layout.root) {call : PaneCall σ}
    (hnext : Terminal.afterCall layout call = some next) : NodesHold next.root := by
  unfold Terminal.afterCall at hnext
  cases hresult : call.result layout with
  | error error =>
      rw [hresult] at hnext
      exact Option.some.inj hnext ▸ h
  | ok result =>
      rw [hresult] at hnext
      change result = some next at hnext
      subst hnext
      cases call with
      | split target new direction position idFactory =>
          obtain ⟨value, hvalue, hsome⟩ := map_some_ok hresult
          obtain rfl := Option.some.inj hsome
          obtain ⟨-, -, -, -, newId, direction, position, state, state', hnew, hinsert⟩ :=
            insertTerminalPane_ok hvalue
          exact h.insertPane (createNodeId_ne_nil hnew) hinsert
      | focus sessionId =>
          obtain ⟨value, hvalue, hsome⟩ := map_some_ok hresult
          obtain rfl := Option.some.inj hsome
          unfold focusTerminalPane at hvalue
          split_ifs at hvalue
          · exact Except.ok.inj hvalue ▸ h
          · exact Except.ok.inj hvalue ▸ h
      | resize splitId ratio =>
          obtain ⟨value, hvalue, hsome⟩ := map_some_ok hresult
          exact Option.some.inj hsome ▸ h.resize hvalue
      | remove sessionId =>
          exact h.pruneNode
            (root_of_map (removeTerminalPane_root layout sessionId) (Except.ok.inj hresult))
      | prune live =>
          exact h.pruneNode
            (root_of_map (pruneTerminalPaneLayout_root layout live) (Except.ok.inj hresult))

theorem NodesHold.afterCalls {layout next : TerminalPaneLayoutSnapshot σ}
    (h : NodesHold layout.root) {calls : List (PaneCall σ)}
    (hnext : Terminal.afterCalls layout calls = some next) : NodesHold next.root := by
  induction calls generalizing layout with
  | nil => exact Option.some.inj hnext ▸ h
  | cons call calls ih =>
      obtain ⟨middle, hmiddle, hrest⟩ := Option.bind_eq_some_iff.mp hnext
      exact ih (h.afterCall hmiddle) hrest

/-- A layout that the operations lead to. -/
def Reached (layout : TerminalPaneLayoutSnapshot σ) : Prop :=
  ∃ sessionId idFactory created calls,
    createTerminalPaneLayout sessionId idFactory = .ok created ∧
      Terminal.afterCalls created calls = some layout

theorem Reached.sound {layout : TerminalPaneLayoutSnapshot σ} (h : Reached layout) :
    SoundLayout layout := by
  obtain ⟨sessionId, idFactory, created, calls, hcreated, hcalls⟩ := h
  exact (SoundLayout.create hcreated).afterCalls hcalls

theorem Reached.nodesHold {layout : TerminalPaneLayoutSnapshot σ} (h : Reached layout) :
    NodesHold layout.root := by
  obtain ⟨sessionId, idFactory, created, calls, hcreated, hcalls⟩ := h
  refine NodesHold.afterCalls ?_ hcalls
  unfold createTerminalPaneLayout at hcreated
  cases hid : createNodeId "pane" idFactory 0 with
  | error error =>
      rw [hid] at hcreated
      cases hcreated
  | ok id =>
      rw [hid] at hcreated
      obtain rfl := Except.ok.inj hcreated
      exact createNodeId_ne_nil hid

end Panes

/-! ### Created snapshots -/

/-- An id that may be stored as it is. -/
structure PlainNodeId (id : JsString) : Prop where
  bounded : byteLength id ≤ maxPaneNodeIdBytes
  printed : id.any isControlUnit = false
  no_slash : id.any isSlash = false
  trimmed : id = trimBlanks id

theorem PlainNodeId.reference {id : JsString} (h : PlainNodeId id) (hid : id ≠ []) :
    Reference maxPaneNodeIdBytes id := by
  refine ⟨⟨h.trimmed ▸ hid, h.bounded, h.trimmed, h.printed⟩, h.no_slash, fun huri => ?_⟩
  have hmem : (0x2f : UInt16) ∈ id := huri.subset (by decide)
  have hslash : id.any isSlash = true := List.any_eq_true.mpr ⟨_, hmem, by decide⟩
  rw [h.no_slash] at hslash
  cases hslash

section Creation

variable {layout : SessionRestorePaneLayout} {retained : WorkspaceSessionId → Bool}

/-- What the operations lead to is accepted, if its ids are plain and different. -/
theorem Reached.accepted (h : Reached layout)
    (hplain : ∀ id ∈ paneNodeIds layout.root, PlainNodeId id)
    (hnodup : (paneNodeIds layout.root).Nodup) : AcceptedLayout retained true layout := by
  obtain ⟨hratios, hfilled⟩ := nodesHold_iff.mp h.nodesHold
  have hbounded : (collectTerminalPaneSessionIds layout.root).length ≤ 64 := h.sound.bounded
  have hcount := length_paneNodeIds layout.root
  have hdepth := nodeDepth_le layout.root
  refine ⟨⟨hratios, fun id hid => (hplain id hid).reference (hfilled id hid),
    fresh_nil.mpr hnodup, fresh_nil.mpr h.sound.distinct, ?_, ?_, .inl rfl⟩, .inl rfl⟩
  · change 0 + (paneNodeIds layout.root).length ≤ 127
    omega
  · change nodeDepth layout.root ≤ 64
    omega

/-- What is left of an accepted layout is accepted without pruning. -/
theorem AcceptedLayout.pruned (h : AcceptedLayout retained true layout)
    (hbounded : (collectTerminalPaneSessionIds layout.root).length ≤ 64)
    {restored : SessionRestorePaneLayout}
    (hrestored : pruneLayout retained layout = some restored) :
    AcceptedLayout retained false restored := by
  unfold pruneLayout at hrestored
  obtain ⟨root, hroot, rfl⟩ := Option.map_eq_some_iff.mp hrestored
  obtain ⟨hids, hratios⟩ := pruneNode_inherits hroot
  have hcollect := collect_pruneNode retained layout.root
  rw [hroot, Option.map_some, Option.getD_some] at hcollect
  have hlength : (collectTerminalPaneSessionIds root).length ≤ 64 := by
    rw [hcollect]
    exact (List.length_filter_le _ _).trans hbounded
  have hdepth := nodeDepth_le root
  refine ⟨⟨hratios h.root.ratios, fun id hid => h.root.ids id (hids.subset hid),
    fresh_nil.mpr ((fresh_nil.mp h.root.newIds).sublist hids), fresh_nil.mpr ?_, ?_, ?_, .inr ?_⟩,
    .inr ?_⟩
  · rw [hcollect]
    exact (fresh_nil.mp h.root.newSessions).filter _
  · exact (Nat.add_le_add_left hids.length_le _).trans h.root.count
  · change nodeDepth root ≤ 64
    omega
  · intro sessionId hsession
    rw [hcollect] at hsession
    exact (List.mem_filter.mp hsession).2
  · dsimp only
    split_ifs with hfocus
    · exact hfocus
    · rw [← headD_collect root layout.focusedSessionId]
      obtain ⟨session, rest, hne⟩ := List.exists_cons_of_ne_nil (collect_ne_nil root)
      rw [hne]
      exact List.mem_cons_self

end Creation

/-- A snapshot of entries that keeps what it can of a layout. -/
structure Restores (entries : List SessionRestoreEntry) (active : Option WorkspaceSessionId)
    (layout : SessionRestorePaneLayout) (snapshot : SessionRestoreSnapshot) : Prop where
  sessions : snapshot.sessions = entries
  activeSessionId : snapshot.activeSessionId = active
  /-- The panes of the stored sessions, in their order. -/
  leaves : (snapshot.paneLayout.map fun kept => collectTerminalPaneSessionIds kept.root).getD [] =
    (collectTerminalPaneSessionIds layout.root).filter snapshot.ids.contains
  omitted : snapshot.paneLayout = none ↔
    (collectTerminalPaneSessionIds layout.root).filter snapshot.ids.contains = []
  focus : ∀ kept ∈ snapshot.paneLayout,
    kept.focusedSessionId ∈ collectTerminalPaneSessionIds kept.root ∧
      (layout.focusedSessionId ∈ snapshot.ids → kept.focusedSessionId = layout.focusedSessionId)
  pruned : snapshot.paneLayout.map TerminalPaneLayoutSnapshot.root =
    (pruneTerminalPaneLayout layout snapshot.ids.contains).map TerminalPaneLayoutSnapshot.root

section Creation

variable {entries : List SessionRestoreEntry} {active : Option WorkspaceSessionId}
  {layout : SessionRestorePaneLayout}

theorem pruneLayout_root {retained : WorkspaceSessionId → Bool} :
    (pruneLayout retained layout).map TerminalPaneLayoutSnapshot.root =
      pruneNode retained layout.root := by
  rw [pruneLayout, Option.map_map]
  exact Option.map_id'

/-- The snapshot of valid entries and an accepted layout. -/
theorem createSessionRestoreSnapshot_eq
    (hvalid : (SessionRestoreSnapshot.mk active entries none).Valid)
    (haccepted : AcceptedLayout (entries.map (·.workspaceSessionId)).contains true layout)
    (hbounded : (collectTerminalPaneSessionIds layout.root).length ≤ 64) :
    createSessionRestoreSnapshot entries active (some layout) =
      .ok ⟨active, entries, pruneLayout (entries.map (·.workspaceSessionId)).contains layout⟩ := by
  have hwithout := validateSessionRestoreSnapshot_ok_iff.mpr ⟨snapshot_shows _, hvalid⟩
  have hpruned := normalizePaneLayout_ok_iff.mpr ⟨layout, paneLayout_shows layout, haccepted, rfl⟩
  unfold createSessionRestoreSnapshot withPaneLayout
  rw [hwithout]
  dsimp only
  rw [hpruned]
  cases hrestored : pruneLayout (entries.map (·.workspaceSessionId)).contains layout with
  | none => rfl
  | some restored =>
      refine validateSessionRestoreSnapshot_ok_iff.mpr ⟨snapshot_shows _, ?_⟩
      refine ⟨hvalid.bounded, hvalid.entries, hvalid.distinct, hvalid.active, fun kept hkept => ?_⟩
      cases hkept
      exact haccepted.pruned hbounded hrestored

theorem restores_pruneLayout (h : SoundLayout layout) :
    Restores entries active layout
      ⟨active, entries, pruneLayout (entries.map (·.workspaceSessionId)).contains layout⟩ := by
  have hcollect := collect_pruneNode (entries.map (·.workspaceSessionId)).contains layout.root
  refine ⟨rfl, rfl, ?_, ?_, fun kept hkept => ?_, ?_⟩
  · dsimp only
    rw [pruneLayout, Option.map_map]
    exact hcollect
  · dsimp only
    rw [pruneLayout, Option.map_eq_none_iff]
    exact pruneNode_eq_none_iff
  · dsimp only at hkept
    unfold pruneLayout at hkept
    obtain ⟨root, hroot, rfl⟩ := Option.map_eq_some_iff.mp hkept
    rw [hroot, Option.map_some, Option.getD_some] at hcollect
    dsimp only
    split_ifs with hfocus
    · exact ⟨hfocus, fun _ => rfl⟩
    · refine ⟨?_, fun hretained => absurd ?_ hfocus⟩
      · rw [← headD_collect root layout.focusedSessionId]
        obtain ⟨session, rest, hne⟩ := List.exists_cons_of_ne_nil (collect_ne_nil root)
        rw [hne]
        exact List.mem_cons_self
      · rw [hcollect]
        exact List.mem_filter.mpr ⟨h.focused, List.contains_iff_mem.mpr hretained⟩
  · rw [pruneTerminalPaneLayout_root]
    exact pruneLayout_root

end Creation

/-! ### The laws -/

/-- A value that comes back from its text. -/
structure Survives (F : NumberText) (value : Value) (snapshot : SessionRestoreSnapshot) : Prop where
  /-- The snapshot has what the value has, and nothing else. -/
  shown : snapshot.Shows value
  idempotent : validateSessionRestoreSnapshot snapshot.value = .ok snapshot
  stored : byteLength (Json.textOf F snapshot.value) ≤ maxSessionRestoreBytes →
    ∃ encoded, encodeSessionRestoreSnapshot F value = .ok encoded ∧
      decodeSessionRestoreSnapshot F encoded = .ok snapshot

/-- Entries that may be stored, with the active one. -/
structure Storable (entries : List SessionRestoreEntry) (active : Option WorkspaceSessionId) :
    Prop where
  bounded : entries.length ≤ maxSessionRestoreEntries
  accepted : ∀ entry ∈ entries, normalizeEntry entry.value = .ok entry
  distinct : (entries.map (·.workspaceSessionId)).Nodup
  active_mem : ∀ id ∈ active, id ∈ entries.map (·.workspaceSessionId)

theorem Storable.valid {entries : List SessionRestoreEntry} {active : Option WorkspaceSessionId}
    (h : Storable entries active) : (SessionRestoreSnapshot.mk active entries none).Valid :=
  ⟨h.bounded, fun entry hentry => (normalizeEntry_ok_iff.mp (h.accepted entry hentry)).2,
    h.distinct, h.active_mem, nofun⟩

/-- **Snapshots survive storage and pruning.** -/
theorem sessionRestore_laws (F : NumberText) :
    (∀ value snapshot, DoublesOnly F value → validateSessionRestoreSnapshot value = .ok snapshot →
      Survives F value snapshot) ∧
    ∀ entries active layout, Storable entries active → Reached layout →
      (∀ id ∈ paneNodeIds layout.root, PlainNodeId id) → (paneNodeIds layout.root).Nodup →
      ∃ snapshot, createSessionRestoreSnapshot entries active (some layout) = .ok snapshot ∧
        Restores entries active layout snapshot := by
  refine ⟨fun value snapshot hdoubles hsnapshot => ?_,
    fun entries active layout hstorable hreached hplain hnodup => ?_⟩
  · refine ⟨(validateSessionRestoreSnapshot_ok_iff.mp hsnapshot).1, validate_value hsnapshot,
      fun hsize => ?_⟩
    have hencoded : encodeSessionRestoreSnapshot F value = .ok (Json.textOf F snapshot.value) := by
      unfold encodeSessionRestoreSnapshot
      rw [hsnapshot]
      exact if_neg (Nat.not_lt.mpr hsize)
    obtain ⟨decoded, hdecoded, hdecode⟩ := decode_encode hdoubles hencoded
    obtain rfl : decoded = snapshot := Except.ok.inj (hdecoded.symm.trans hsnapshot)
    exact ⟨_, hencoded, hdecode⟩
  · exact ⟨_, createSessionRestoreSnapshot_eq hstorable.valid (hreached.accepted hplain hnodup)
      hreached.sound.bounded, restores_pruneLayout hreached.sound⟩

/-- More entries than a snapshot may have are refused. -/
theorem createSessionRestoreSnapshot_limit {entries : List SessionRestoreEntry}
    (h : maxSessionRestoreEntries < entries.length) (active : Option WorkspaceSessionId)
    (paneLayout : Option SessionRestorePaneLayout) :
    createSessionRestoreSnapshot entries active paneLayout = .error .limitReached := by
  have hshown := snapshot_shows ⟨active, entries, none⟩
  obtain ⟨items, hitems, hforall⟩ := hshown.sessions
  have hkeys : hasExactKeys (SessionRestoreSnapshot.mk active entries none).value snapshotKeys =
      true := hshown.keys
  have hlimit : validateSessionRestoreSnapshot
      (SessionRestoreSnapshot.mk active entries none).value = .error .limitReached := by
    unfold validateSessionRestoreSnapshot
    dsimp only
    rw [hkeys, isVersion_iff.mpr hshown.version, hitems, Bool.not_true, Bool.and_false,
      if_neg Bool.false_ne_true, if_neg Bool.false_ne_true]
    exact if_pos (hforall.length_eq ▸ h)
  unfold createSessionRestoreSnapshot
  rw [hlimit]

/-! ### Numbered sessions -/

def numberedText (n : ℕ) : JsString :=
  units "ws-000000" ++ [Json.hexDigit (n / 16), Json.hexDigit (n % 16)] ++
    units "-0000-1000-8000-000000000000"

/-- More sessions than a snapshot may have. -/
def numberedSession (i : Fin 65) : WorkspaceSessionId :=
  ⟨numberedText i, by revert i; decide +kernel⟩

theorem numberedSession_injective : Function.Injective numberedSession := by
  intro i j h
  have htext : numberedText i = numberedText j := congrArg Subtype.val h
  simp only [numberedText, List.append_cancel_right_eq, List.append_cancel_left_eq,
    List.cons.injEq, and_true] at htext
  have hhigh := congrArg Json.hexDigitValue htext.1
  have hlow := congrArg Json.hexDigitValue htext.2
  rw [Json.hexDigitValue_hexDigit (by omega), Json.hexDigitValue_hexDigit (by omega),
    Option.some.injEq] at hhigh hlow
  omega

def numberedEntry (i : Fin 65) : SessionRestoreEntry :=
  ⟨numberedSession i, .serial, .serial (units "a")⟩

theorem numberedEntry_accepted (i : Fin 65) :
    normalizeEntry (numberedEntry i).value = .ok (numberedEntry i) := by
  refine normalizeEntry_ok_iff.mpr ⟨entry_shows _, rfl, ?_⟩
  exact ⟨by decide, by decide, by decide, by decide⟩

/-- Two panes beside each other, made with the ids of a factory. -/
def sessionPanes (newId splitId : String) : SessionRestorePaneLayout :=
  ⟨.split (units splitId) .vertical (1 / 2) (.pane (units "pane-a") (numberedSession 0))
    (.pane (units newId) (numberedSession 1)), numberedSession 0⟩

theorem reached_sessionPanes : Reached (sessionPanes "pane-b" "split-c") := by
  refine ⟨numberedSession 0, fun _ => some (jsString "a"),
    ⟨.pane (jsString "pane-a") (numberedSession 0), numberedSession 0⟩,
    [.split (numberedSession 0) (numberedSession 1) (some .vertical) (some .after)
      fun n => some (jsString (if n = 0 then "b" else "c"))], ?_, ?_⟩
  · decide +kernel
  · decide +kernel

/-- A factory that gives one suffix at each call. -/
theorem reached_repeated : Reached (sessionPanes "pane-a" "split-a") := by
  refine ⟨numberedSession 0, fun _ => some (jsString "a"),
    ⟨.pane (jsString "pane-a") (numberedSession 0), numberedSession 0⟩,
    [.split (numberedSession 0) (numberedSession 1) (some .vertical) (some .after)
      fun _ => some (jsString "a")], ?_, ?_⟩
  · decide +kernel
  · decide +kernel

theorem plainNodeId_sessionPanes {newId splitId : String} (hnew : PlainNodeId (units newId))
    (hsplit : PlainNodeId (units splitId)) :
    ∀ id ∈ paneNodeIds (sessionPanes newId splitId).root, PlainNodeId id := by
  have hpane : PlainNodeId (units "pane-a") := ⟨by decide, by decide, by decide, by decide⟩
  intro id hid
  simp only [sessionPanes, paneNodeIds, List.mem_cons, List.mem_append, List.not_mem_nil,
    or_false] at hid
  rcases hid with rfl | rfl | rfl
  · exact hsplit
  · exact hpane
  · exact hnew

theorem plainNodeId_literal : ∀ s ∈ ["pane-a", "pane-b", "split-a", "split-c"],
    PlainNodeId (units s) := by
  intro s hs
  simp only [List.mem_cons, List.not_mem_nil, or_false] at hs
  rcases hs with rfl | rfl | rfl | rfl
  · exact ⟨by decide, by decide, by decide, by decide⟩
  · exact ⟨by decide, by decide, by decide, by decide⟩
  · exact ⟨by decide, by decide, by decide, by decide⟩
  · exact ⟨by decide, by decide, by decide, by decide⟩

/-- Numerals of the whole numbers, and no others. -/
def wholeNumbers : NumberText where
  double q := ∃ n : ℕ, n ≤ 2 ^ 53 ∧ q = n
  integer n hn := ⟨n, hn, rfl⟩
  text q := if q.num.toNat = 0 then [0x30]
    else (Nat.digits 10 q.num.toNat).reverse.map fun d => (0x30 + d).toUInt16
  read t := if t = [] then none
    else some (Nat.ofDigits 10 (t.reverse.map fun c => c.toNat - 0x30) : ℕ)
  numeral q := by
    rintro ⟨n, -, rfl⟩
    rw [Rat.num_natCast, Int.toNat_natCast]
    split_ifs with hn
    · exact ⟨List.cons_ne_nil _ _, List.forall_mem_singleton.mpr rfl⟩
    · refine ⟨by simpa using Nat.digits_ne_nil_iff_ne_zero.mpr hn, fun c hc => ?_⟩
      obtain ⟨d, hd, rfl⟩ := List.mem_map.mp hc
      have hlt : d < 10 := Nat.digits_lt_base (by decide) (List.mem_reverse.mp hd)
      have hall : ∀ d < 10, Json.isNumeral (0x30 + d).toUInt16 = true := by decide
      exact hall d hlt
  read_text q := by
    rintro ⟨n, -, rfl⟩
    rw [Rat.num_natCast, Int.toNat_natCast]
    split_ifs with hn hnil hnil
    · cases hnil
    · rw [hn]
      rfl
    · exact absurd (by simpa using hnil) (Nat.digits_ne_nil_iff_ne_zero.mpr hn)
    · have hdigits : ∀ d ∈ Nat.digits 10 n, (0x30 + d).toUInt16.toNat - 0x30 = d := by
        intro d hd
        have hlt : d < 10 := Nat.digits_lt_base (by decide) hd
        have hall : ∀ d < 10, (0x30 + d).toUInt16.toNat - 0x30 = d := by decide
        exact hall d hlt
      rw [← List.map_reverse, List.reverse_reverse, List.map_map]
      have hmap : (Nat.digits 10 n).map ((fun c : UInt16 => c.toNat - 0x30) ∘
          fun d => (0x30 + d).toUInt16) = Nat.digits 10 n := List.map_congr_left hdigits |>.trans
        (List.map_id _)
      rw [hmap, Nat.ofDigits_digits]

/-- One of two panes is stored, and a snapshot of none. -/
theorem sessionRestore_laws_sessionPanes :
    Survives wholeNumbers (SessionRestoreSnapshot.mk none [] none).value ⟨none, [], none⟩ ∧
      ∃ snapshot, createSessionRestoreSnapshot [numberedEntry 1] none
          (some (sessionPanes "pane-b" "split-c")) = .ok snapshot ∧
        Restores [numberedEntry 1] none (sessionPanes "pane-b" "split-c") snapshot := by
  refine ⟨(sessionRestore_laws wholeNumbers).1 _ _ ?_ (by decide +kernel),
    (sessionRestore_laws wholeNumbers).2 _ _ _ ⟨by decide, ?_, List.nodup_singleton _, nofun⟩
      reached_sessionPanes ?_ (by decide)⟩
  · refine .object fun field hfield => ?_
    simp only [List.map, List.mem_cons, List.not_mem_nil, or_false, Option.map_none,
      Option.toList_none, List.append_nil] at hfield
    rcases hfield with rfl | rfl | rfl
    · exact .number (wholeNumbers.integer 2 (by decide))
    · exact .null
    · exact .array nofun
  · exact List.forall_mem_singleton.mpr (numberedEntry_accepted 1)
  · exact plainNodeId_sessionPanes (plainNodeId_literal _ (by decide))
      (plainNodeId_literal _ (by decide))

/-- A factory that repeats itself gives a layout that cannot be stored, and so do too many
entries. -/
theorem creation_fails :
    (∃ layout, Storable [] none ∧ Reached layout ∧
        (∀ id ∈ paneNodeIds layout.root, PlainNodeId id) ∧
        createSessionRestoreSnapshot [] none (some layout) = .error .paneNodeDuplicate) ∧
      ∃ entries layout, (∀ entry ∈ entries, normalizeEntry entry.value = .ok entry) ∧
        (entries.map (·.workspaceSessionId)).Nodup ∧ Reached layout ∧
        (∀ id ∈ paneNodeIds layout.root, PlainNodeId id) ∧
        createSessionRestoreSnapshot entries none (some layout) = .error .limitReached := by
  refine ⟨⟨sessionPanes "pane-a" "split-a", ⟨Nat.zero_le _, nofun, List.nodup_nil, nofun⟩,
    reached_repeated, ?_, ?_⟩, (List.finRange 65).map numberedEntry,
    sessionPanes "pane-b" "split-c", ?_, ?_, reached_sessionPanes, ?_, ?_⟩
  · exact plainNodeId_sessionPanes (plainNodeId_literal _ (by decide))
      (plainNodeId_literal _ (by decide))
  · decide +kernel
  · intro entry hentry
    obtain ⟨i, -, rfl⟩ := List.mem_map.mp hentry
    exact numberedEntry_accepted i
  · rw [List.map_map]
    exact (List.nodup_finRange 65).map numberedSession_injective
  · exact plainNodeId_sessionPanes (plainNodeId_literal _ (by decide))
      (plainNodeId_literal _ (by decide))
  · exact createSessionRestoreSnapshot_limit (by rw [List.length_map, List.length_finRange]; decide)
      none _

end Netcatty.Terminal
