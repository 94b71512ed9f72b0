import Netcatty.Library.Catalog
import Netcatty.Terminal.SessionRestore

/-! # What a stored value shows

The checks of the fields, the targets and the entries of a stored value.  A value is accepted as an
entry exactly if it shows one that is valid (`normalizeEntry_ok_iff`): it has the fields of the
entry, and no others. -/

namespace Netcatty.Terminal

open Catalog (bind_ok_iff)
open Json (NumberText Value units)

theorem unless_ok_iff {α : Type} {p : Prop} [Decidable p] {error : SessionRestoreError}
    {result : Restoring α} {a : α} :
    (if p then .error error else result) = .ok a ↔ ¬p ∧ result = .ok a := by
  split_ifs with hp
  · exact ⟨nofun, fun h => absurd hp h.1⟩
  · exact ⟨fun h => ⟨hp, h⟩, fun h => h.2⟩

theorem map_ok_iff {α β : Type} {result : Restoring α} {f : α → β} {b : β} :
    result.map f = .ok b ↔ ∃ a, result = .ok a ∧ f a = b := by
  cases result with
  | error e => exact ⟨nofun, nofun⟩
  | ok a =>
      constructor
      · intro h
        exact ⟨a, rfl, Except.ok.inj h⟩
      · rintro ⟨a, h, rfl⟩
        cases h
        rfl

/-! ### Texts and numbers -/

theorem isText_iff {value : Value} {s : String} :
    isText value s = true ↔ value = textValue s := by
  cases value with
  | string text => simp [isText, textValue]
  | null => simp [isText, textValue]
  | bool b => simp [isText, textValue]
  | number q => simp [isText, textValue]
  | array items => simp [isText, textValue]
  | object fields => simp [isText, textValue]
  | other => simp [isText, textValue]

structure PlainText (maximumBytes : ℕ) (text : JsString) : Prop where
  filled : trimBlanks text ≠ []
  bounded : byteLength text ≤ maximumBytes
  trimmed : text = trimBlanks text
  printed : text.any isControlUnit = false

structure Reference (maximumBytes : ℕ) (text : JsString) : Prop extends
    PlainText maximumBytes text where
  no_slash : text.any isSlash = false
  no_uri : ¬units "://" <:+: text

structure LocalShellId (text : JsString) : Prop extends PlainText maxLocalShellIdBytes text where
  spelled : isLocalShellId text = true
  no_dots : ¬units ".." <:+: text

section Fields

variable {value : Value} {error : SessionRestoreError} {maximumBytes : ℕ} {text : JsString}

theorem assertText_ok_iff : assertText value error maximumBytes = .ok text ↔
    value = .string text ∧ PlainText maximumBytes text := by
  unfold assertText
  cases value with
  | string stored =>
      dsimp only
      rw [unless_ok_iff, unless_ok_iff, Except.ok.injEq, Value.string.injEq]
      simp only [Bool.or_eq_true, List.isEmpty_iff, decide_eq_true_eq, not_or, not_lt, ne_eq,
        not_not, Bool.not_eq_true]
      constructor
      · rintro ⟨⟨hfilled, hbounded⟩, ⟨htrimmed, hprinted⟩, rfl⟩
        exact ⟨rfl, hfilled, hbounded, htrimmed, hprinted⟩
      · rintro ⟨rfl, h⟩
        exact ⟨⟨h.filled, h.bounded⟩, ⟨h.trimmed, h.printed⟩, rfl⟩
  | null => exact ⟨nofun, nofun⟩
  | bool b => exact ⟨nofun, nofun⟩
  | number q => exact ⟨nofun, nofun⟩
  | array items => exact ⟨nofun, nofun⟩
  | object fields => exact ⟨nofun, nofun⟩
  | other => exact ⟨nofun, nofun⟩

theorem assertReference_ok_iff : assertReference value error maximumBytes = .ok text ↔
    value = .string text ∧ Reference maximumBytes text := by
  unfold assertReference
  cases htext : assertText value error maximumBytes with
  | error e =>
      refine ⟨nofun, fun ⟨hvalue, h⟩ => ?_⟩
      rw [assertText_ok_iff.mpr ⟨hvalue, h.toPlainText⟩] at htext
      cases htext
  | ok stored =>
      obtain ⟨rfl, hplain⟩ := assertText_ok_iff.mp htext
      dsimp only
      rw [unless_ok_iff, Except.ok.injEq, Value.string.injEq]
      simp only [Bool.or_eq_true, decide_eq_true_eq, not_or, Bool.not_eq_true]
      constructor
      · rintro ⟨⟨hslash, huri⟩, rfl⟩
        exact ⟨rfl, hplain, hslash, huri⟩
      · rintro ⟨rfl, h⟩
        exact ⟨⟨h.no_slash, h.no_uri⟩, rfl⟩

theorem assertLocalShellId_ok_iff : assertLocalShellId value = .ok text ↔
    value = .string text ∧ LocalShellId text := by
  unfold assertLocalShellId
  cases htext : assertText value .shellIdInvalid maxLocalShellIdBytes with
  | error e =>
      refine ⟨nofun, fun ⟨hvalue, h⟩ => ?_⟩
      rw [assertText_ok_iff.mpr ⟨hvalue, h.toPlainText⟩] at htext
      cases htext
  | ok stored =>
      obtain ⟨rfl, hplain⟩ := assertText_ok_iff.mp htext
      dsimp only
      rw [unless_ok_iff, Except.ok.injEq, Value.string.injEq]
      simp only [Bool.or_eq_true, decide_eq_true_eq, not_or, Bool.not_eq_true, Bool.not_eq_false']
      constructor
      · rintro ⟨⟨hspelled, hdots⟩, rfl⟩
        exact ⟨rfl, hplain, hspelled, hdots⟩
      · rintro ⟨rfl, h⟩
        exact ⟨⟨h.spelled, h.no_dots⟩, rfl⟩

theorem assertPort_ok_iff {port : ℕ} : assertPort value = .ok port ↔
    value = .number port ∧ 1 ≤ port ∧ port ≤ 65535 := by
  unfold assertPort
  cases value with
  | number q =>
      dsimp only
      rw [Value.number.injEq]
      split_ifs with h
      · rw [Except.ok.injEq]
        constructor
        · rintro rfl
          have hnum : ((q.num.toNat : ℤ) : ℚ) = q := by
            rw [Int.toNat_of_nonneg (by omega)]
            exact (Rat.den_eq_one_iff q).mp h.1
          rw [Int.cast_natCast] at hnum
          exact ⟨hnum.symm, by omega, by omega⟩
        · rintro ⟨rfl, -⟩
          simp
      · refine ⟨nofun, ?_⟩
        rintro ⟨rfl, hlow, hhigh⟩
        refine absurd ⟨?_, ?_, ?_⟩ h
        · exact Rat.den_natCast port
        · rw [Rat.num_natCast]
          omega
        · rw [Rat.num_natCast]
          omega
  | null => exact ⟨nofun, nofun⟩
  | bool b => exact ⟨nofun, nofun⟩
  | string text => exact ⟨nofun, nofun⟩
  | array items => exact ⟨nofun, nofun⟩
  | object fields => exact ⟨nofun, nofun⟩
  | other => exact ⟨nofun, nofun⟩

theorem assertPaneRatio_ok_iff {ratio : ℚ} : assertPaneRatio value = .ok ratio ↔
    value = .number ratio ∧ minPaneRatio ≤ ratio ∧ ratio ≤ maxPaneRatio := by
  unfold assertPaneRatio
  cases value with
  | number q =>
      dsimp only
      rw [unless_ok_iff, not_or, not_lt, not_lt, Except.ok.injEq, Value.number.injEq]
      constructor
      · rintro ⟨h, rfl⟩
        exact ⟨rfl, h⟩
      · rintro ⟨rfl, h⟩
        exact ⟨h, rfl⟩
  | null => exact ⟨nofun, nofun⟩
  | bool b => exact ⟨nofun, nofun⟩
  | string text => exact ⟨nofun, nofun⟩
  | array items => exact ⟨nofun, nofun⟩
  | object fields => exact ⟨nofun, nofun⟩
  | other => exact ⟨nofun, nofun⟩

theorem workspaceSessionIdFrom_eq_some {id : WorkspaceSessionId} :
    workspaceSessionIdFrom value = some id ↔ value = .string id.val := by
  unfold workspaceSessionIdFrom
  cases value with
  | string text =>
      dsimp only
      rw [Value.string.injEq]
      split_ifs with h
      · constructor
        · intro heq
          cases heq
          rfl
        · intro heq
          exact congrArg some (Subtype.ext heq)
      · exact ⟨nofun, fun heq => absurd (heq ▸ id.property) h⟩
  | null => exact ⟨nofun, nofun⟩
  | bool b => exact ⟨nofun, nofun⟩
  | number q => exact ⟨nofun, nofun⟩
  | array items => exact ⟨nofun, nofun⟩
  | object fields => exact ⟨nofun, nofun⟩
  | other => exact ⟨nofun, nofun⟩

theorem ofValue_eq_some {protocol : TerminalSessionProtocol} :
    TerminalSessionProtocol.ofValue value = some protocol ↔ value = textValue protocol.text := by
  constructor
  · intro h
    have hfound := List.find?_some h
    exact isText_iff.mp hfound
  · rintro rfl
    cases protocol <;> decide

theorem assertDirection_ok_iff {direction : TerminalPaneSplitDirection} :
    assertDirection value = .ok direction ↔ value = textValue (splitDirectionText direction) := by
  unfold assertDirection
  constructor
  · intro h
    split_ifs at h with h₁ h₂ <;> cases h
    · exact isText_iff.mp h₁
    · exact isText_iff.mp h₂
  · rintro rfl
    cases direction <;> decide

end Fields

/-! ### Entries -/

/-- The fields of a value, and no others, are those of the target. -/
def SessionRestoreTarget.Shows (value : Value) : SessionRestoreTarget → Prop
  | saved savedHostId label =>
      hasExactKeys value ["kind", "savedHostId", "label"] = true ∧
        fieldOf value "kind" = textValue "saved" ∧
        fieldOf value "savedHostId" = .string savedHostId ∧ fieldOf value "label" = .string label
  | quick label hostname port =>
      hasExactKeys value ["kind", "label", "hostname", "port"] = true ∧
        fieldOf value "kind" = textValue "quick" ∧ fieldOf value "label" = .string label ∧
        fieldOf value "hostname" = .string hostname ∧ fieldOf value "port" = .number port
  | «local» label shellId =>
      hasExactKeys value ["kind", "label", "shellId"] = true ∧
        fieldOf value "kind" = textValue "local" ∧ fieldOf value "label" = .string label ∧
        fieldOf value "shellId" = .string shellId
  | serial label =>
      hasExactKeys value ["kind", "label"] = true ∧ fieldOf value "kind" = textValue "serial" ∧
        fieldOf value "label" = .string label

def SessionRestoreTarget.Valid (protocol : TerminalSessionProtocol) : SessionRestoreTarget → Prop
  | saved savedHostId label =>
      protocol ≠ .local ∧ Reference maxSavedHostIdBytes savedHostId ∧
        PlainText maxTargetLabelBytes label
  | quick label hostname port =>
      protocol ≠ .local ∧ PlainText maxTargetLabelBytes label ∧
        Reference maxHostnameBytes hostname ∧ 1 ≤ port ∧ port ≤ 65535
  | «local» label shellId =>
      protocol = .local ∧ PlainText maxTargetLabelBytes label ∧ LocalShellId shellId
  | serial label => protocol = .serial ∧ PlainText maxTargetLabelBytes label

theorem isObject_of_hasExactKeys {value : Value} {keys : List String}
    (h : hasExactKeys value keys = true) : isObject value = true := by
  cases value with
  | object fields => rfl
  | null => cases h
  | bool b => cases h
  | number q => cases h
  | string text => cases h
  | array items => cases h
  | other => cases h

section Target

variable {value : Value} {protocol : TerminalSessionProtocol} {target : SessionRestoreTarget}

theorem normalizeSaved_ok_iff (hkind : fieldOf value "kind" = textValue "saved") :
    normalizeSaved value protocol = .ok target ↔
      ∃ savedHostId label, target = .saved savedHostId label ∧ target.Shows value ∧
        target.Valid protocol := by
  unfold normalizeSaved assertOpaqueSavedHostId assertTargetLabel
  simp only [unless_ok_iff, bind_ok_iff, assertReference_ok_iff, assertText_ok_iff,
    Catalog.pure_ok_iff, Bool.not_eq_true, Bool.not_eq_false']
  constructor
  · rintro ⟨hkeys, hprotocol, savedHostId, ⟨hid, hreference⟩, label, ⟨hlabel, hplain⟩, rfl⟩
    exact ⟨savedHostId, label, rfl, ⟨hkeys, hkind, hid, hlabel⟩, hprotocol, hreference, hplain⟩
  · rintro ⟨savedHostId, label, rfl, ⟨hkeys, -, hid, hlabel⟩, hprotocol, hreference, hplain⟩
    exact ⟨hkeys, hprotocol, savedHostId, ⟨hid, hreference⟩, label, ⟨hlabel, hplain⟩, rfl⟩

theorem normalizeQuick_ok_iff (hkind : fieldOf value "kind" = textValue "quick") :
    normalizeQuick value protocol = .ok target ↔
      ∃ label hostname port, target = .quick label hostname port ∧ target.Shows value ∧
        target.Valid protocol := by
  unfold normalizeQuick assertHostname assertTargetLabel
  simp only [unless_ok_iff, bind_ok_iff, assertReference_ok_iff, assertText_ok_iff,
    assertPort_ok_iff, Catalog.pure_ok_iff, Bool.not_eq_true, Bool.not_eq_false']
  constructor
  · rintro ⟨hkeys, hprotocol, label, ⟨hlabel, hplain⟩, hostname, ⟨hhostname, hreference⟩, port,
      ⟨hport, hlow, hhigh⟩, rfl⟩
    exact ⟨label, hostname, port, rfl, ⟨hkeys, hkind, hlabel, hhostname, hport⟩, hprotocol, hplain,
      hreference, hlow, hhigh⟩
  · rintro ⟨label, hostname, port, rfl, ⟨hkeys, -, hlabel, hhostname, hport⟩, hprotocol, hplain,
      hreference, hlow, hhigh⟩
    exact ⟨hkeys, hprotocol, label, ⟨hlabel, hplain⟩, hostname, ⟨hhostname, hreference⟩, port,
      ⟨hport, hlow, hhigh⟩, rfl⟩

theorem normalizeLocal_ok_iff (hkind : fieldOf value "kind" = textValue "local") :
    normalizeLocal value protocol = .ok target ↔
      ∃ label shellId, target = .local label shellId ∧ target.Shows value ∧
        target.Valid protocol := by
  unfold normalizeLocal assertTargetLabel
  simp only [unless_ok_iff, bind_ok_iff, assertLocalShellId_ok_iff, assertText_ok_iff,
    Catalog.pure_ok_iff, Bool.not_eq_true, Bool.not_eq_false', ne_eq, not_not]
  constructor
  · rintro ⟨hkeys, hprotocol, label, ⟨hlabel, hplain⟩, shellId, ⟨hid, hshell⟩, rfl⟩
    exact ⟨label, shellId, rfl, ⟨hkeys, hkind, hlabel, hid⟩, hprotocol, hplain, hshell⟩
  · rintro ⟨label, shellId, rfl, ⟨hkeys, -, hlabel, hid⟩, hprotocol, hplain, hshell⟩
    exact ⟨hkeys, hprotocol, label, ⟨hlabel, hplain⟩, shellId, ⟨hid, hshell⟩, rfl⟩

theorem normalizeSerial_ok_iff (hkind : fieldOf value "kind" = textValue "serial") :
    normalizeSerial value protocol = .ok target ↔
      ∃ label, target = .serial label ∧ target.Shows value ∧ target.Valid protocol := by
  unfold normalizeSerial assertTargetLabel
  simp only [unless_ok_iff, map_ok_iff, assertText_ok_iff, Bool.or_eq_true, not_or,
    Bool.not_eq_true, Bool.not_eq_false', decide_eq_false_iff_not, ne_eq, not_not]
  constructor
  · rintro ⟨⟨hkeys, hprotocol⟩, label, ⟨hlabel, hplain⟩, rfl⟩
    exact ⟨label, rfl, ⟨hkeys, hkind, hlabel⟩, hprotocol, hplain⟩
  · rintro ⟨label, rfl, ⟨hkeys, -, hlabel⟩, hprotocol, hplain⟩
    exact ⟨⟨hkeys, hprotocol⟩, label, ⟨hlabel, hplain⟩, rfl⟩

theorem normalizeTarget_ok_iff : normalizeTarget value protocol = .ok target ↔
    target.Shows value ∧ target.Valid protocol := by
  have hkinds : ∀ {s t : String}, fieldOf value "kind" = textValue s →
      isText (textValue s) t = false → isText (fieldOf value "kind") t = false :=
    fun hs ht => hs ▸ ht
  unfold normalizeTarget
  dsimp only
  constructor
  · intro h
    split_ifs at h with hobject hsaved hquick hlocal hserial
    · obtain ⟨_, _, -, hshown⟩ := (normalizeSaved_ok_iff (isText_iff.mp hsaved)).mp h
      exact hshown
    · obtain ⟨_, _, _, -, hshown⟩ := (normalizeQuick_ok_iff (isText_iff.mp hquick)).mp h
      exact hshown
    · obtain ⟨_, _, -, hshown⟩ := (normalizeLocal_ok_iff (isText_iff.mp hlocal)).mp h
      exact hshown
    · obtain ⟨_, -, hshown⟩ := (normalizeSerial_ok_iff (isText_iff.mp hserial)).mp h
      exact hshown
  · rintro ⟨hshown, hvalid⟩
    cases target with
    | saved savedHostId label =>
        have hkind := hshown.2.1
        rw [isObject_of_hasExactKeys hshown.1, if_neg (by decide), if_pos (isText_iff.mpr hkind)]
        exact (normalizeSaved_ok_iff hkind).mpr ⟨_, _, rfl, hshown, hvalid⟩
    | quick label hostname port =>
        have hkind := hshown.2.1
        rw [isObject_of_hasExactKeys hshown.1, if_neg (by decide), hkinds hkind (by decide),
          if_neg (by decide), if_pos (isText_iff.mpr hkind)]
        exact (normalizeQuick_ok_iff hkind).mpr ⟨_, _, _, rfl, hshown, hvalid⟩
    | «local» label shellId =>
        have hkind := hshown.2.1
        rw [isObject_of_hasExactKeys hshown.1, if_neg (by decide), hkinds hkind (by decide),
          if_neg (by decide), hkinds hkind (by decide), if_neg (by decide),
          if_pos (isText_iff.mpr hkind)]
        exact (normalizeLocal_ok_iff hkind).mpr ⟨_, _, rfl, hshown, hvalid⟩
    | serial label =>
        have hkind := hshown.2.1
        rw [isObject_of_hasExactKeys hshown.1, if_neg (by decide), hkinds hkind (by decide),
          if_neg (by decide), hkinds hkind (by decide), if_neg (by decide),
          hkinds hkind (by decide), if_neg (by decide), if_pos (isText_iff.mpr hkind)]
        exact (normalizeSerial_ok_iff hkind).mpr ⟨_, rfl, hshown, hvalid⟩

end Target

structure SessionRestoreEntry.Shows (value : Value) (entry : SessionRestoreEntry) : Prop where
  keys : hasExactKeys value ["workspaceSessionId", "protocol", "target"] = true
  id : fieldOf value "workspaceSessionId" = .string entry.workspaceSessionId.val
  protocol : fieldOf value "protocol" = textValue entry.protocol.text
  target : entry.target.Shows (fieldOf value "target")

def SessionRestoreEntry.Valid (entry : SessionRestoreEntry) : Prop :=
  entry.target.Valid entry.protocol

theorem normalizeEntry_ok_iff {value : Value} {entry : SessionRestoreEntry} :
    normalizeEntry value = .ok entry ↔ entry.Shows value ∧ entry.Valid := by
  unfold normalizeEntry
  rw [unless_ok_iff, Bool.not_eq_true, Bool.not_eq_false']
  constructor
  · rintro ⟨hkeys, h⟩
    split at h
    · cases h
    · next id hid =>
        split at h
        · cases h
        · next protocol hprotocol =>
            obtain ⟨target, htarget, rfl⟩ := map_ok_iff.mp h
            obtain ⟨hshown, hvalid⟩ := normalizeTarget_ok_iff.mp htarget
            exact ⟨⟨hkeys, workspaceSessionIdFrom_eq_some.mp hid, ofValue_eq_some.mp hprotocol,
              hshown⟩, hvalid⟩
  · rintro ⟨h, hvalid⟩
    refine ⟨h.keys, ?_⟩
    rw [workspaceSessionIdFrom_eq_some.mpr h.id, ofValue_eq_some.mpr h.protocol]
    exact map_ok_iff.mpr ⟨entry.target, normalizeTarget_ok_iff.mpr ⟨h.target, hvalid⟩, rfl⟩

/-- The entries of a list, which have different ids. -/
theorem normalizeEntries_ok_iff {values : List Value} {before entries : List SessionRestoreEntry}
    (hbefore : (before.map (·.workspaceSessionId)).Nodup) :
    normalizeEntries values before = .ok entries ↔
      ∃ added, entries = before ++ added ∧ List.Forall₂ SessionRestoreEntry.Shows values added ∧
        (∀ entry ∈ added, entry.Valid) ∧ (entries.map (·.workspaceSessionId)).Nodup := by
  induction values generalizing before with
  | nil =>
      rw [normalizeEntries, Except.ok.injEq]
      constructor
      · rintro rfl
        exact ⟨[], (List.append_nil _).symm, .nil, nofun, hbefore⟩
      · rintro ⟨added, rfl, hshown, -⟩
        cases hshown
        exact (List.append_nil _).symm
  | cons value values ih =>
      have hfresh : ∀ entry : SessionRestoreEntry,
          ((before ++ [entry]).map (·.workspaceSessionId)).Nodup ↔
            (before.map (·.workspaceSessionId)).contains entry.workspaceSessionId = false := by
        intro entry
        rw [List.map_append, List.map_singleton, List.nodup_append_comm, List.singleton_append,
          List.nodup_cons, Bool.eq_false_iff, ne_eq, List.contains_iff_mem]
        exact and_iff_left hbefore
      rw [normalizeEntries]
      constructor
      · intro h
        split at h
        · cases h
        · next entry hentry =>
            obtain ⟨hshown, hvalid⟩ := normalizeEntry_ok_iff.mp hentry
            rw [unless_ok_iff, Bool.not_eq_true] at h
            obtain ⟨added, rfl, hadded, hall, hnodup⟩ := (ih ((hfresh entry).mpr h.1)).mp h.2
            refine ⟨entry :: added, (List.append_cons _ _ _).symm, .cons hshown hadded, ?_, hnodup⟩
            intro other hother
            obtain rfl | hmem := List.mem_cons.mp hother
            · exact hvalid
            · exact hall other hmem
      · rintro ⟨added, rfl, hshown, hall, hnodup⟩
        cases hshown with
        | @cons _ entry _ added hentry hadded =>
            have hsub : (before ++ [entry]).Sublist (before ++ entry :: added) := by
              rw [List.append_cons before entry added]
              exact List.sublist_append_left _ _
            have hnext : ((before ++ [entry]).map (·.workspaceSessionId)).Nodup :=
              hnodup.sublist (hsub.map _)
            rw [normalizeEntry_ok_iff.mpr ⟨hentry, hall entry List.mem_cons_self⟩]
            dsimp only
            rw [unless_ok_iff, Bool.not_eq_true]
            refine ⟨(hfresh entry).mp hnext, (ih hnext).mpr ⟨added, List.append_cons _ _ _, hadded,
              fun other hother => hall other (List.mem_cons_of_mem entry hother), hnodup⟩⟩

end Netcatty.Terminal
