import Netcatty.Terminal.RestoredPanes

/-! # Stored snapshots

A value is accepted as a snapshot exactly if it shows one that is valid
(`validateSessionRestoreSnapshot_ok_iff`), and the value of a snapshot shows it (`snapshot_shows`):
so validation is idempotent, and what is encoded decodes (`decode_encode`). -/

namespace Netcatty.Terminal

open Catalog (bind_ok_iff)
open Json (NumberText Value units)

/-! ### Layouts -/

structure PaneLayoutShows (layout : SessionRestorePaneLayout) (value : Value) : Prop where
  keys : hasExactKeys value ["root", "focusedSessionId"] = true
  root : PaneNodeShows layout.root (fieldOf value "root")
  focus : fieldOf value "focusedSessionId" = .string layout.focusedSessionId.val

/-- The panes of the sessions to keep, with the focus on the one that had it, or on the first. -/
def pruneLayout (retained : WorkspaceSessionId → Bool) (layout : SessionRestorePaneLayout) :
    Option SessionRestorePaneLayout :=
  (pruneNode retained layout.root).map fun root =>
    ⟨root, if layout.focusedSessionId ∈ collectTerminalPaneSessionIds root then
      layout.focusedSessionId else firstSession root⟩

section Layout

variable (retained : WorkspaceSessionId → Bool) (pruneMissingSessions : Bool)

/-- A layout that is accepted, with the sessions that are stored. -/
structure AcceptedLayout (layout : SessionRestorePaneLayout) : Prop where
  root : Accepted retained pruneMissingSessions maxSessionRestorePaneDepth ⟨0, [], [], []⟩
    layout.root
  focus : pruneMissingSessions = true ∨
    layout.focusedSessionId ∈ collectTerminalPaneSessionIds layout.root

variable {retained pruneMissingSessions}

theorem headD_collect (node : SessionRestorePaneLayoutNode) (default : WorkspaceSessionId) :
    (collectTerminalPaneSessionIds node).headD default = firstSession node := by
  induction node with
  | pane id sessionId => rfl
  | split id direction ratio first second ihFirst ihSecond =>
      obtain ⟨session, rest, hfirst⟩ := List.exists_cons_of_ne_nil (collect_ne_nil first)
      rw [collectTerminalPaneSessionIds, firstSession, ← ihFirst, hfirst]
      rfl

theorem pruneLayout_all {layout : SessionRestorePaneLayout}
    (hall : ∀ sessionId ∈ collectTerminalPaneSessionIds layout.root, retained sessionId = true)
    (hfocus : layout.focusedSessionId ∈ collectTerminalPaneSessionIds layout.root) :
    pruneLayout retained layout = some layout := by
  rw [pruneLayout, pruneNode_all hall, Option.map_some, if_pos hfocus]

/-- The layout that is left after the recursion. -/
theorem pruneLayout_eq {layout : SessionRestorePaneLayout} {root : SessionRestorePaneLayoutNode}
    (hroot : pruneNode retained layout.root = some root) :
    pruneLayout retained layout = some ⟨root, chooseRestoredFocus layout.focusedSessionId
      (PaneVisit.after retained ⟨0, [], [], []⟩ layout.root)⟩ := by
  have hcollect := collect_pruneNode retained layout.root
  rw [hroot, Option.map_some, Option.getD_some] at hcollect
  unfold pruneLayout chooseRestoredFocus PaneVisit.after
  dsimp only
  rw [hroot, Option.map_some, List.nil_append, ← hcollect, headD_collect]
  simp only [List.contains_iff_mem]

theorem normalizePaneLayout_ok_iff {value : Value} {result : Option SessionRestorePaneLayout} :
    normalizePaneLayout retained pruneMissingSessions value = .ok result ↔
      ∃ layout, PaneLayoutShows layout value ∧
        AcceptedLayout retained pruneMissingSessions layout ∧
        result = pruneLayout retained layout := by
  unfold normalizePaneLayout
  rw [unless_ok_iff, Bool.not_eq_true, Bool.not_eq_false']
  constructor
  · rintro ⟨hkeys, h⟩
    split at h
    · cases h
    · next focus hfocus =>
      have hfocus := workspaceSessionIdFrom_eq_some.mp hfocus
      split at h
      · cases h
      · next hvisit =>
        obtain ⟨root, hshown, hroot, heq⟩ := visitPaneNode_ok_iff.mp hvisit
        have hpruned : pruneNode retained root = none := (congrArg Prod.fst heq).symm
        have hprune : pruneMissingSessions = true := by
          refine hroot.kept.resolve_right fun hall => ?_
          rw [pruneNode_all hall] at hpruned
          cases hpruned
        refine ⟨⟨root, focus⟩, ⟨hkeys, hshown, hfocus⟩, ⟨hroot, .inl hprune⟩, ?_⟩
        rw [pruneLayout, hpruned]
        exact (Except.ok.inj h).symm
      · next pruned state hvisit =>
        obtain ⟨root, hshown, hroot, heq⟩ := visitPaneNode_ok_iff.mp hvisit
        obtain ⟨hpruned, rfl⟩ := Prod.mk.inj heq
        rw [unless_ok_iff] at h
        refine ⟨⟨root, focus⟩, ⟨hkeys, hshown, hfocus⟩, ⟨hroot, ?_⟩, ?_⟩
        · rw [Bool.and_eq_true, Bool.not_eq_true', Bool.not_eq_true', not_and_or,
            Bool.not_eq_false, Bool.not_eq_false, List.contains_iff_mem] at h
          refine h.1.symm.imp_right fun hmem => ?_
          change focus ∈ (collectTerminalPaneSessionIds root).filter retained at hmem
          exact List.mem_of_mem_filter hmem
        · rw [pruneLayout_eq hpruned.symm]
          exact (Except.ok.inj h.2).symm
  · rintro ⟨layout, hshown, haccepted, rfl⟩
    refine ⟨hshown.keys, ?_⟩
    rw [workspaceSessionIdFrom_eq_some.mpr hshown.focus,
      visitPaneNode_ok_iff.mpr ⟨layout.root, hshown.root, haccepted.root, rfl⟩]
    cases hroot : pruneNode retained layout.root with
    | none =>
        dsimp only
        rw [pruneLayout, hroot]
        rfl
    | some root =>
        dsimp only
        rw [unless_ok_iff, pruneLayout_eq hroot]
        refine ⟨?_, rfl⟩
        rw [Bool.and_eq_true, Bool.not_eq_true', Bool.not_eq_true', not_and_or,
          Bool.not_eq_false, Bool.not_eq_false, List.contains_iff_mem]
        obtain hprune | hfocus := haccepted.focus
        · exact .inr hprune
        · obtain hprune | hall := haccepted.root.kept
          · exact .inr hprune
          · exact .inl (List.mem_append_right _
              (List.mem_filter.mpr ⟨hfocus, hall _ hfocus⟩))

end Layout

/-! ### Snapshots -/

def paneLayoutKeys (snapshot : SessionRestoreSnapshot) : List String :=
  (snapshot.paneLayout.map fun _ => "paneLayout").toList

def SessionRestoreSnapshot.ids (snapshot : SessionRestoreSnapshot) : List WorkspaceSessionId :=
  snapshot.sessions.map (·.workspaceSessionId)

structure SessionRestoreSnapshot.Shows (value : Value) (snapshot : SessionRestoreSnapshot) :
    Prop where
  keys : hasExactKeys value (snapshotKeys ++ paneLayoutKeys snapshot) = true
  version : fieldOf value "version" = .number sessionRestoreVersion
  active : fieldOf value "activeSessionId" = activeValue snapshot.activeSessionId
  sessions : ∃ items, fieldOf value "sessions" = .array items ∧
    List.Forall₂ SessionRestoreEntry.Shows items snapshot.sessions
  paneLayout : ∀ layout ∈ snapshot.paneLayout,
    PaneLayoutShows layout (fieldOf value "paneLayout")

structure SessionRestoreSnapshot.Valid (snapshot : SessionRestoreSnapshot) : Prop where
  bounded : snapshot.sessions.length ≤ maxSessionRestoreEntries
  entries : ∀ entry ∈ snapshot.sessions, entry.Valid
  distinct : snapshot.ids.Nodup
  active : ∀ id ∈ snapshot.activeSessionId, id ∈ snapshot.ids
  paneLayout : ∀ layout ∈ snapshot.paneLayout, AcceptedLayout snapshot.ids.contains false layout

section Validation

variable {value : Value} {snapshot : SessionRestoreSnapshot}

theorem normalizeActive_ok_iff {ids : List WorkspaceSessionId}
    {activeSessionId : Option WorkspaceSessionId} :
    normalizeActive value ids = .ok activeSessionId ↔
      value = activeValue activeSessionId ∧ ∀ id ∈ activeSessionId, id ∈ ids := by
  unfold normalizeActive
  constructor
  · intro h
    split at h
    · cases h
      exact ⟨rfl, nofun⟩
    · split at h
      · cases h
      · next id hid =>
        split_ifs at h with hmem
        cases h
        refine ⟨workspaceSessionIdFrom_eq_some.mp hid, fun id' hid' => ?_⟩
        cases hid'
        exact List.contains_iff_mem.mp hmem
  · rintro ⟨rfl, hmem⟩
    cases activeSessionId with
    | none => rfl
    | some id =>
        rw [activeValue]
        dsimp only
        rw [workspaceSessionIdFrom_eq_some.mpr rfl]
        exact if_pos (List.contains_iff_mem.mpr (hmem id rfl))

theorem isVersion_iff : isVersion value = true ↔ value = .number sessionRestoreVersion := by
  cases value with
  | number q => simp [isVersion]
  | null => exact ⟨nofun, nofun⟩
  | bool b => exact ⟨nofun, nofun⟩
  | string text => exact ⟨nofun, nofun⟩
  | array items => exact ⟨nofun, nofun⟩
  | object fields => exact ⟨nofun, nofun⟩
  | other => exact ⟨nofun, nofun⟩

/-- A value has one number of fields. -/
theorem hasExactKeys_length {keys keys' : List String} (h : hasExactKeys value keys = true)
    (h' : hasExactKeys value keys' = true) : keys.length = keys'.length := by
  cases value with
  | object fields =>
      unfold hasExactKeys at h h'
      rw [Bool.and_eq_true, decide_eq_true_eq] at h h'
      exact h.1.symm.trans h'.1
  | null => cases h
  | bool b => cases h
  | number q => cases h
  | string text => cases h
  | array items => cases h
  | other => cases h

theorem normalizeStoredLayout_ok_iff {hasPaneLayout : Bool} {ids : List WorkspaceSessionId}
    {paneLayout : Option SessionRestorePaneLayout} :
    normalizeStoredLayout hasPaneLayout value ids = .ok paneLayout ↔
      hasPaneLayout = paneLayout.isSome ∧ ∀ layout ∈ paneLayout,
        PaneLayoutShows layout (fieldOf value "paneLayout") ∧
          AcceptedLayout ids.contains false layout := by
  unfold normalizeStoredLayout
  cases hasPaneLayout with
  | false =>
      rw [if_neg Bool.false_ne_true, Except.ok.injEq]
      constructor
      · rintro rfl
        exact ⟨rfl, nofun⟩
      · rintro ⟨hnone, -⟩
        exact (Option.isNone_iff_eq_none.mp (Option.isSome_eq_false_iff.mp hnone.symm)).symm
  | true =>
      rw [if_pos rfl, normalizePaneLayout_ok_iff]
      have hpruned : ∀ layout, AcceptedLayout ids.contains false layout →
          pruneLayout ids.contains layout = some layout := by
        intro layout h
        exact pruneLayout_all (h.root.kept.resolve_left Bool.false_ne_true)
          (h.focus.resolve_left Bool.false_ne_true)
      constructor
      · rintro ⟨layout, hshown, haccepted, rfl⟩
        rw [hpruned layout haccepted]
        refine ⟨rfl, fun layout' hlayout' => ?_⟩
        cases hlayout'
        exact ⟨hshown, haccepted⟩
      · rintro ⟨hsome, hall⟩
        obtain ⟨layout, rfl⟩ := Option.isSome_iff_exists.mp hsome.symm
        obtain ⟨hshown, haccepted⟩ := hall layout rfl
        exact ⟨layout, hshown, haccepted, (hpruned layout haccepted).symm⟩

theorem validateStored_ok_iff {hasPaneLayout : Bool} {rawEntries : List Value} :
    validateStored hasPaneLayout value rawEntries = .ok snapshot ↔
      List.Forall₂ SessionRestoreEntry.Shows rawEntries snapshot.sessions ∧
        (∀ entry ∈ snapshot.sessions, entry.Valid) ∧ snapshot.ids.Nodup ∧
        fieldOf value "activeSessionId" = activeValue snapshot.activeSessionId ∧
        (∀ id ∈ snapshot.activeSessionId, id ∈ snapshot.ids) ∧
        hasPaneLayout = snapshot.paneLayout.isSome ∧
        ∀ layout ∈ snapshot.paneLayout, PaneLayoutShows layout (fieldOf value "paneLayout") ∧
          AcceptedLayout snapshot.ids.contains false layout := by
  have hentries : ∀ sessions, normalizeEntries rawEntries [] = .ok sessions ↔ _ := fun _ =>
    normalizeEntries_ok_iff List.nodup_nil
  unfold validateStored SessionRestoreSnapshot.ids
  simp only [bind_ok_iff, Catalog.pure_ok_iff, hentries,
    normalizeActive_ok_iff, normalizeStoredLayout_ok_iff, List.nil_append]
  constructor
  · rintro ⟨sessions, ⟨added, rfl, hshown, hvalid, hnodup⟩, active, ⟨hactive, hmem⟩, layout,
      ⟨hsome, hlayout⟩, rfl⟩
    exact ⟨hshown, hvalid, hnodup, hactive, hmem, hsome, hlayout⟩
  · rintro ⟨hshown, hvalid, hnodup, hactive, hmem, hsome, hlayout⟩
    exact ⟨snapshot.sessions, ⟨_, rfl, hshown, hvalid, hnodup⟩, _, ⟨hactive, hmem⟩, _,
      ⟨hsome, hlayout⟩, rfl⟩

theorem not_neither_iff : ∀ b b' : Bool, ¬(!b && !b') = true ↔ b = true ∨ b' = true := by decide

theorem paneLayoutKeys_iff (hkeys : hasExactKeys value (snapshotKeys ++ ["paneLayout"]) = true ∨
      hasExactKeys value snapshotKeys = true) :
    hasExactKeys value (snapshotKeys ++ ["paneLayout"]) = snapshot.paneLayout.isSome ↔
      hasExactKeys value (snapshotKeys ++ paneLayoutKeys snapshot) = true := by
  unfold paneLayoutKeys
  cases snapshot.paneLayout with
  | some layout => exact Iff.rfl
  | none =>
      rw [Option.map_none, Option.toList_none, List.append_nil, Option.isSome_none,
        Bool.eq_false_iff]
      constructor
      · intro h
        exact hkeys.resolve_left h
      · intro h h'
        exact absurd (hasExactKeys_length h h') (by decide)

/-- **What is accepted**: the values that show a valid snapshot. -/
theorem validateSessionRestoreSnapshot_ok_iff :
    validateSessionRestoreSnapshot value = .ok snapshot ↔
      snapshot.Shows value ∧ snapshot.Valid := by
  unfold validateSessionRestoreSnapshot
  dsimp only
  rw [unless_ok_iff, unless_ok_iff, not_neither_iff, Bool.not_eq_true, Bool.not_eq_false',
    isVersion_iff]
  constructor
  · rintro ⟨hkeys, hversion, h⟩
    split at h
    · next rawEntries hsessions =>
      rw [unless_ok_iff, not_lt, validateStored_ok_iff] at h
      obtain ⟨hbounded, hshown, hvalid, hnodup, hactive, hmem, hsome, hlayout⟩ := h
      refine ⟨⟨(paneLayoutKeys_iff hkeys).mp hsome, hversion, hactive, ⟨_, hsessions, hshown⟩,
        fun layout h => (hlayout layout h).1⟩, ?_, hvalid, hnodup, hmem,
        fun layout h => (hlayout layout h).2⟩
      rw [← hshown.length_eq]
      exact hbounded
    · cases h
  · rintro ⟨hshows, hvalid⟩
    have hkeys : hasExactKeys value (snapshotKeys ++ ["paneLayout"]) = true ∨
        hasExactKeys value snapshotKeys = true := by
      have hkeys := hshows.keys
      unfold paneLayoutKeys at hkeys
      cases hlayout : snapshot.paneLayout with
      | none =>
          rw [hlayout, Option.map_none, Option.toList_none, List.append_nil] at hkeys
          exact .inr hkeys
      | some layout =>
          rw [hlayout] at hkeys
          exact .inl hkeys
    obtain ⟨items, hitems, hshown⟩ := hshows.sessions
    refine ⟨hkeys, hshows.version, ?_⟩
    rw [hitems]
    dsimp only
    rw [unless_ok_iff, not_lt, validateStored_ok_iff, hshown.length_eq]
    exact ⟨hvalid.bounded, hshown, hvalid.entries, hvalid.distinct, hshows.active, hvalid.active,
      (paneLayoutKeys_iff hkeys).mpr hshows.keys,
      fun layout h => ⟨hshows.paneLayout layout h, hvalid.paneLayout layout h⟩⟩

end Validation

/-! ### The values of snapshots -/

theorem fieldOf_objectValue {fields : List (String × Value)} {key : String} {value : Value}
    (hnodup : ((fields.map Prod.fst).map units).Nodup) (h : (key, value) ∈ fields) :
    fieldOf (objectValue fields) key = value := by
  have hlookup : (fields.map fun field => (units field.1, field.2)).lookup (units key) =
      some value := by
    induction fields with
    | nil => cases h
    | cons field fields ih =>
        rw [List.map_cons, List.map_cons, List.nodup_cons, List.map_map] at hnodup
        rw [List.map_cons, List.lookup_cons]
        obtain rfl | hmem := List.mem_cons.mp h
        · rw [beq_self_eq_true]
        · have hne : units key ≠ units field.1 := by
            intro heq
            exact hnodup.1 (List.mem_map.mpr ⟨_, hmem, heq⟩)
          rw [beq_false_of_ne hne]
          rw [List.map_map] at ih
          exact ih hnodup.2 hmem
  unfold fieldOf objectValue
  dsimp only
  rw [hlookup, Option.getD_some]

theorem hasExactKeys_objectValue (fields : List (String × Value)) :
    hasExactKeys (objectValue fields) (fields.map Prod.fst) = true := by
  unfold hasExactKeys objectValue
  dsimp only
  rw [List.length_map, List.length_map, decide_eq_true rfl, Bool.true_and, List.all_eq_true]
  intro key hkey
  obtain ⟨field, hmem, rfl⟩ := List.mem_map.mp hkey
  rw [List.contains_iff_mem, List.map_map]
  exact List.mem_map.mpr ⟨field, hmem, rfl⟩

theorem target_shows (target : SessionRestoreTarget) : target.Shows target.value := by
  cases target with
  | saved savedHostId label =>
      have hkeys : (["kind", "savedHostId", "label"].map units).Nodup := by decide
      exact ⟨hasExactKeys_objectValue _, fieldOf_objectValue hkeys (by simp),
        fieldOf_objectValue hkeys (by simp), fieldOf_objectValue hkeys (by simp)⟩
  | quick label hostname port =>
      have hkeys : (["kind", "label", "hostname", "port"].map units).Nodup := by decide
      exact ⟨hasExactKeys_objectValue _, fieldOf_objectValue hkeys (by simp),
        fieldOf_objectValue hkeys (by simp), fieldOf_objectValue hkeys (by simp),
        fieldOf_objectValue hkeys (by simp)⟩
  | «local» label shellId =>
      have hkeys : (["kind", "label", "shellId"].map units).Nodup := by decide
      exact ⟨hasExactKeys_objectValue _, fieldOf_objectValue hkeys (by simp),
        fieldOf_objectValue hkeys (by simp), fieldOf_objectValue hkeys (by simp)⟩
  | serial label =>
      have hkeys : (["kind", "label"].map units).Nodup := by decide
      exact ⟨hasExactKeys_objectValue _, fieldOf_objectValue hkeys (by simp),
        fieldOf_objectValue hkeys (by simp)⟩

theorem entry_shows (entry : SessionRestoreEntry) : entry.Shows entry.value := by
  have hkeys : (["workspaceSessionId", "protocol", "target"].map units).Nodup := by decide
  have htarget : fieldOf entry.value "target" = entry.target.value :=
    fieldOf_objectValue hkeys (by simp)
  exact ⟨hasExactKeys_objectValue _, fieldOf_objectValue hkeys (by simp),
    fieldOf_objectValue hkeys (by simp), htarget ▸ target_shows entry.target⟩

theorem paneNode_shows (node : SessionRestorePaneLayoutNode) :
    PaneNodeShows node (paneNodeValue node) := by
  induction node with
  | pane id sessionId =>
      have hkeys : (["id", "type", "sessionId"].map units).Nodup := by decide
      exact ⟨hasExactKeys_objectValue _, fieldOf_objectValue hkeys (by simp),
        fieldOf_objectValue hkeys (by simp), fieldOf_objectValue hkeys (by simp)⟩
  | split id direction ratio first second ihFirst ihSecond =>
      have hkeys : (["id", "type", "direction", "ratio", "first", "second"].map units).Nodup := by
        decide
      have hfirst : fieldOf (paneNodeValue (.split id direction ratio first second)) "first" =
          paneNodeValue first := fieldOf_objectValue hkeys (by simp)
      have hsecond : fieldOf (paneNodeValue (.split id direction ratio first second)) "second" =
          paneNodeValue second := fieldOf_objectValue hkeys (by simp)
      exact ⟨hasExactKeys_objectValue _, fieldOf_objectValue hkeys (by simp),
        fieldOf_objectValue hkeys (by simp), fieldOf_objectValue hkeys (by simp),
        fieldOf_objectValue hkeys (by simp), hfirst.symm ▸ ihFirst, hsecond.symm ▸ ihSecond⟩

theorem paneLayout_shows (layout : SessionRestorePaneLayout) :
    PaneLayoutShows layout (paneLayoutValue layout) := by
  have hkeys : (["root", "focusedSessionId"].map units).Nodup := by decide
  have hroot : fieldOf (paneLayoutValue layout) "root" = paneNodeValue layout.root :=
    fieldOf_objectValue hkeys (by simp)
  exact ⟨hasExactKeys_objectValue _, hroot ▸ paneNode_shows layout.root,
    fieldOf_objectValue hkeys (by simp)⟩

theorem forall₂_shows (entries : List SessionRestoreEntry) :
    List.Forall₂ SessionRestoreEntry.Shows (entries.map SessionRestoreEntry.value) entries := by
  rw [List.forall₂_map_left_iff, List.forall₂_same]
  intro entry _
  exact entry_shows entry

/-- **The value of a snapshot** has its fields, and no others. -/
theorem snapshot_shows (snapshot : SessionRestoreSnapshot) : snapshot.Shows snapshot.value := by
  obtain ⟨active, sessions, paneLayout⟩ := snapshot
  cases paneLayout with
  | none =>
      have hkeys : (snapshotKeys.map units).Nodup := by decide
      exact ⟨hasExactKeys_objectValue _, fieldOf_objectValue hkeys (List.mem_cons_self),
        fieldOf_objectValue hkeys (by simp),
        ⟨_, fieldOf_objectValue hkeys (by simp), forall₂_shows sessions⟩, nofun⟩
  | some layout =>
      have hkeys : ((snapshotKeys ++ ["paneLayout"]).map units).Nodup := by decide
      have hlayout : fieldOf (SessionRestoreSnapshot.mk active sessions (some layout)).value
          "paneLayout" = paneLayoutValue layout := fieldOf_objectValue hkeys (by simp)
      refine ⟨hasExactKeys_objectValue _, fieldOf_objectValue hkeys (List.mem_cons_self),
        fieldOf_objectValue hkeys (by simp),
        ⟨_, fieldOf_objectValue hkeys (by simp), forall₂_shows sessions⟩, fun layout' h => ?_⟩
      cases h
      rw [hlayout]
      exact paneLayout_shows layout

/-- Validation is idempotent. -/
theorem validate_value {value : Value} {snapshot : SessionRestoreSnapshot}
    (h : validateSessionRestoreSnapshot value = .ok snapshot) :
    validateSessionRestoreSnapshot snapshot.value = .ok snapshot :=
  validateSessionRestoreSnapshot_ok_iff.mpr
    ⟨snapshot_shows snapshot, (validateSessionRestoreSnapshot_ok_iff.mp h).2⟩

/-! ### Texts -/

section Texts

open Json (Plain)

variable (F : NumberText)

/-- The numbers in a value are doubles, as all numbers of a script are. -/
inductive DoublesOnly : Value → Prop
  | null : DoublesOnly .null
  | bool (b : Bool) : DoublesOnly (.bool b)
  | number {q : ℚ} (h : F.double q) : DoublesOnly (.number q)
  | string (s : JsString) : DoublesOnly (.string s)
  | array {items : List Value} (h : ∀ item ∈ items, DoublesOnly item) : DoublesOnly (.array items)
  | object {fields : List (JsString × Value)} (h : ∀ field ∈ fields, DoublesOnly field.2) :
      DoublesOnly (.object fields)
  | other : DoublesOnly .other

variable {F}

theorem DoublesOnly.field {value : Value} (h : DoublesOnly F value) (key : String) :
    DoublesOnly F (fieldOf value key) := by
  cases h with
  | @object fields h =>
      unfold fieldOf
      dsimp only
      cases hlookup : fields.lookup (units key) with
      | none => exact .other
      | some value =>
          obtain ⟨before, after, rfl, -⟩ := List.lookup_eq_some_iff.mp hlookup
          exact h (units key, value) (by simp)
  | null => exact .other
  | bool b => exact .other
  | number h => exact .other
  | string s => exact .other
  | array h => exact .other
  | other => exact .other

theorem plain_objectValue {fields : List (String × Value)}
    (hnodup : ((fields.map Prod.fst).map units).Nodup) (h : ∀ field ∈ fields, Plain F field.2) :
    Plain F (objectValue fields) := by
  apply Plain.object
  · rw [List.map_map]
    rw [List.map_map] at hnodup
    exact hnodup
  · intro field hfield
    obtain ⟨named, hmem, rfl⟩ := List.mem_map.mp hfield
    exact h named hmem

theorem plain_target {target : SessionRestoreTarget} {protocol : TerminalSessionProtocol}
    (h : target.Valid protocol) : Plain F target.value := by
  cases target with
  | saved savedHostId label =>
      refine plain_objectValue (by simp only [List.map]; decide) ?_
      simp only [List.forall_mem_cons]
      exact ⟨.string _, .string _, .string _, nofun⟩
  | quick label hostname port =>
      refine plain_objectValue (by simp only [List.map]; decide) ?_
      simp only [List.forall_mem_cons]
      have hport : F.double port := F.integer port (h.2.2.2.2.trans (by decide))
      exact ⟨.string _, .string _, .string _, .number hport, nofun⟩
  | «local» label shellId =>
      refine plain_objectValue (by simp only [List.map]; decide) ?_
      simp only [List.forall_mem_cons]
      exact ⟨.string _, .string _, .string _, nofun⟩
  | serial label =>
      refine plain_objectValue (by simp only [List.map]; decide) ?_
      simp only [List.forall_mem_cons]
      exact ⟨.string _, .string _, nofun⟩

theorem plain_entry {entry : SessionRestoreEntry} (h : entry.Valid) : Plain F entry.value := by
  refine plain_objectValue (by simp only [List.map]; decide) ?_
  simp only [List.forall_mem_cons]
  exact ⟨.string _, .string _, plain_target h, nofun⟩

/-- The ratios of a shown tree are numbers of the value. -/
theorem plain_paneNode {node : SessionRestorePaneLayoutNode} {value : Value}
    (h : DoublesOnly F value) (hshown : PaneNodeShows node value) :
    Plain F (paneNodeValue node) := by
  induction node generalizing value with
  | pane id sessionId =>
      refine plain_objectValue (by simp only [List.map]; decide) ?_
      simp only [List.forall_mem_cons]
      exact ⟨.string _, .string _, .string _, nofun⟩
  | split id direction ratio first second ihFirst ihSecond =>
      obtain ⟨-, -, -, -, hratio, hfirst, hsecond⟩ := hshown
      have hdouble : F.double ratio := by
        have hfield := h.field "ratio"
        rw [hratio] at hfield
        cases hfield with
        | number hq => exact hq
      refine plain_objectValue (by simp only [List.map]; decide) ?_
      simp only [List.forall_mem_cons]
      exact ⟨.string _, .string _, .string _, .number hdouble, ihFirst (h.field "first") hfirst,
        ihSecond (h.field "second") hsecond, nofun⟩

theorem plain_snapshot {value : Value} {snapshot : SessionRestoreSnapshot}
    (h : DoublesOnly F value) (hshown : snapshot.Shows value) (hvalid : snapshot.Valid) :
    Plain F snapshot.value := by
  have hversion : F.double sessionRestoreVersion := F.integer 2 (by decide)
  have hactive : Plain F (activeValue snapshot.activeSessionId) := by
    cases snapshot.activeSessionId with
    | none => exact .null
    | some id => exact .string _
  have hsessions : Plain F (.array (snapshot.sessions.map SessionRestoreEntry.value)) := by
    refine .array fun item hitem => ?_
    obtain ⟨entry, hmem, rfl⟩ := List.mem_map.mp hitem
    exact plain_entry (hvalid.entries entry hmem)
  have hlayouts : ∀ layout ∈ snapshot.paneLayout, Plain F (paneLayoutValue layout) := by
    intro layout hlayout
    have hshown := hshown.paneLayout layout hlayout
    refine plain_objectValue (by simp only [List.map]; decide) ?_
    simp only [List.forall_mem_cons]
    exact ⟨plain_paneNode ((h.field "paneLayout").field "root") hshown.root, .string _, nofun⟩
  unfold SessionRestoreSnapshot.value
  cases hlayout : snapshot.paneLayout with
  | none =>
      have hkeys : (snapshotKeys.map units).Nodup := by decide
      refine plain_objectValue hkeys ?_
      simp only [List.forall_mem_cons, Option.map_none, Option.toList_none,
        List.append_nil]
      exact ⟨.number hversion, hactive, hsessions, nofun⟩
  | some layout =>
      have hkeys : ((snapshotKeys ++ ["paneLayout"]).map units).Nodup := by decide
      refine plain_objectValue hkeys ?_
      simp only [List.forall_mem_cons, Option.map_some, Option.toList_some, List.cons_append,
        List.nil_append]
      exact ⟨.number hversion, hactive, hsessions, hlayouts layout hlayout, nofun⟩

/-- **What is encoded decodes.** -/
theorem decode_encode {value : Value} {encoded : JsString} (h : DoublesOnly F value)
    (hencoded : encodeSessionRestoreSnapshot F value = .ok encoded) :
    ∃ snapshot, validateSessionRestoreSnapshot value = .ok snapshot ∧
      decodeSessionRestoreSnapshot F encoded = .ok snapshot := by
  unfold encodeSessionRestoreSnapshot at hencoded
  cases hsnapshot : validateSessionRestoreSnapshot value with
  | error error =>
      rw [hsnapshot] at hencoded
      cases hencoded
  | ok snapshot =>
      rw [hsnapshot] at hencoded
      dsimp only at hencoded
      rw [unless_ok_iff] at hencoded
      obtain ⟨hsize, heq⟩ := hencoded
      obtain rfl := Except.ok.inj heq
      obtain ⟨hshown, hvalid⟩ := validateSessionRestoreSnapshot_ok_iff.mp hsnapshot
      refine ⟨snapshot, rfl, ?_⟩
      rw [decodeSessionRestoreSnapshot, if_neg hsize,
        Json.parse_textOf (plain_snapshot h hshown hvalid)]
      exact validate_value hsnapshot

end Texts

end Netcatty.Terminal
