import Netcatty.Desktop.JournalLaws
import Netcatty.Serial.DestinationNames
import Netcatty.Ssh.ManifestText

/-! # The text of a journal

An envelope is written as one JSON object, and the checksum covers the same object without its last
member.  The text determines the envelope (`journalText_inj`), and however long the ids of its owners
are and whatever they escape, it fits into the size that a slot may have (`journalText_fits`). -/

namespace Netcatty.Desktop

open Credentials (LegacyImportCredentialOwnerKind)
open Secret (Bytes JsonScalar Uuid escapeChar hexEncode)
open Serial (bytesOf bytesOf_append bytesOf_cons bytesOf_nil encodeUtf8 encodeUtf8_inj)
open Ssh (number_inj string_inj)
open Vault (SavedVaultGraphCommitment Slot Text isOpaqueId utf8Len)

/-! ### Members -/

def slotName : Slot → String
  | .a => "a"
  | .b => "b"

def LegacyPreviousCredentialState.name : LegacyPreviousCredentialState → String
  | unknown => "unknown"
  | absent => "absent"
  | backedUp => "backedUp"

def LegacyImportTransactionPhase.name : LegacyImportTransactionPhase → String
  | preparing => "preparing"
  | blobsDurable => "blobsDurable"
  | active => "active"
  | vaultDurable => "vaultDurable"
  | rollbackTargetsRestored => "rollbackTargetsRestored"

def ownerKindName : LegacyImportCredentialOwnerKind → String
  | .host => "host"
  | .hostTelnet => "hostTelnet"
  | .passwordIdentity => "passwordIdentity"
  | .hostInlineProxy => "hostInlineProxy"
  | .proxyProfile => "proxyProfile"
  | .groupSsh => "groupSsh"
  | .groupTelnet => "groupTelnet"
  | .groupProxy => "groupProxy"

/-- The digits of an id, in five groups. -/
def hyphenated (id : Uuid) : Text :=
  hexEncode (id.bytes.take 4) ++ '-' :: (hexEncode ((id.bytes.drop 4).take 2) ++
    '-' :: (hexEncode ((id.bytes.drop 6).take 2) ++
      '-' :: (hexEncode ((id.bytes.drop 8).take 2) ++ '-' :: hexEncode (id.bytes.drop 10))))

def jsonKey (name : String) : Text := '"' :: (name.toList ++ ['"', ':'])

def stringText (value : Text) : Text := (JsonScalar.string value).toText

def nameText (name : String) : Text := stringText name.toList

def entryText (entry : LegacyImportTransactionEntry) : Text :=
  '\x7b' :: (jsonKey "ownerKind" ++ (nameText (ownerKindName entry.ownerKind) ++
    ',' :: (jsonKey "ownerId" ++ (stringText entry.ownerId ++
      ',' :: (jsonKey "previous" ++ (nameText entry.previous.name ++ ['\x7d']))))))

/-- What stands behind an entry. -/
def entriesTail : List LegacyImportTransactionEntry → Text
  | [] => [']']
  | entry :: entries => ',' :: (entryText entry ++ entriesTail entries)

def entriesText : List LegacyImportTransactionEntry → Text
  | [] => ['[', ']']
  | entry :: entries => '[' :: (entryText entry ++ entriesTail entries)

/-- The members that the checksum covers, in front of the rest of the object. -/
def payloadMembers (payload : ChecksumPayload) (rest : Text) : Text :=
  jsonKey "magic" ++ (stringText payload.magic ++
    ',' :: (jsonKey "formatVersion" ++ ((JsonScalar.number payload.formatVersion).toText ++
    ',' :: (jsonKey "slot" ++ (nameText (slotName payload.slot) ++
    ',' :: (jsonKey "generation" ++ ((JsonScalar.number payload.generation).toText ++
    ',' :: (jsonKey "transactionId" ++ (stringText (hyphenated payload.transactionId) ++
    ',' :: (jsonKey "beforeGraphCommitment" ++
      (stringText (hexEncode payload.beforeGraphCommitment) ++
    ',' :: (jsonKey "afterGraphCommitment" ++
      (stringText (hexEncode payload.afterGraphCommitment) ++
    ',' :: (jsonKey "requiresBlobPublication" ++
      ((if payload.requiresBlobPublication then "true" else "false").toList ++
    ',' :: (jsonKey "phase" ++ (nameText payload.phase.name ++
    ',' :: (jsonKey "entries" ++ (entriesText payload.entries ++ rest)))))))))))))))))))

def payloadText (payload : ChecksumPayload) : Text := '\x7b' :: payloadMembers payload ['\x7d']

def journalText (envelope : JournalEnvelope) : Text :=
  '\x7b' :: payloadMembers envelope.toChecksumPayload
    (',' :: (jsonKey "checksum" ++ (stringText envelope.checksum ++ ['\x7d'])))

/-! ### What is written determines the envelope -/

section Injective

variable {l l' : Text}

theorem hexEncode_inj {bytes bytes' : Bytes} (h : hexEncode bytes = hexEncode bytes') :
    bytes = bytes' := by
  have hdecoded := congrArg Secret.decodeHex h
  rw [Secret.decodeHex_hexEncode, Secret.decodeHex_hexEncode] at hdecoded
  exact Option.some.inj hdecoded

theorem of_mem_hexEncode {p : Char → Prop} (hdigit : ∀ n < 16, p (Secret.hexDigit n)) {bytes : Bytes}
    {c : Char} (hc : c ∈ hexEncode bytes) : p c := by
  obtain ⟨byte, _, hc⟩ := List.mem_flatMap.mp hc
  have hbyte := byte.toNat_lt
  rcases List.mem_cons.mp hc with rfl | hc
  · exact hdigit _ (by omega)
  · rw [List.mem_singleton.mp hc]
    exact hdigit _ (by omega)

/-- The digits without the hyphens are those of all bytes. -/
theorem filter_hyphenated (id : Uuid) : (hyphenated id).filter (· ≠ '-') = hexEncode id.bytes := by
  have hdigits : ∀ bytes, (hexEncode bytes).filter (· ≠ '-') = hexEncode bytes := by
    intro bytes
    apply List.filter_eq_self.mpr
    intro c hc
    exact of_mem_hexEncode (p := fun c => decide (c ≠ '-') = true) (by decide) hc
  have happend : ∀ bytes bytes' : Bytes, hexEncode bytes ++ hexEncode bytes' =
      hexEncode (bytes ++ bytes') := fun _ _ => List.flatMap_append.symm
  have hnext : ∀ m, (id.bytes.drop m).take 2 ++ id.bytes.drop (m + 2) = id.bytes.drop m := by
    intro m
    rw [← List.drop_drop, List.take_append_drop]
  simp only [hyphenated, List.filter_append, List.filter_cons, hdigits]
  simp [happend, hnext]

theorem hyphenated_inj {id id' : Uuid} (h : hyphenated id = hyphenated id') : id = id' := by
  have hbytes := congrArg (List.filter (· ≠ '-')) h
  rw [filter_hyphenated, filter_hyphenated] at hbytes
  obtain ⟨bytes, _⟩ := id
  obtain ⟨bytes', _⟩ := id'
  obtain rfl := hexEncode_inj hbytes
  rfl

theorem nameText_inj {name name' : String} (h : nameText name ++ l = nameText name' ++ l') :
    name = name' ∧ l = l' := by
  obtain ⟨hname, hrest⟩ := string_inj h
  exact ⟨String.toList_inj.mp hname, hrest⟩

theorem slotName_inj {slot slot' : Slot} (h : slotName slot = slotName slot') : slot = slot' := by
  revert h
  cases slot <;> cases slot' <;> decide

theorem previousName_inj {previous previous' : LegacyPreviousCredentialState}
    (h : previous.name = previous'.name) : previous = previous' := by
  revert h
  cases previous <;> cases previous' <;> decide

theorem phaseName_inj {phase phase' : LegacyImportTransactionPhase} (h : phase.name = phase'.name) :
    phase = phase' := by
  revert h
  cases phase <;> cases phase' <;> decide

theorem ownerKindName_inj {kind kind' : LegacyImportCredentialOwnerKind}
    (h : ownerKindName kind = ownerKindName kind') : kind = kind' := by
  revert h
  cases kind <;> cases kind' <;> decide

theorem entryText_inj {entry entry' : LegacyImportTransactionEntry}
    (h : entryText entry ++ l = entryText entry' ++ l') : entry = entry' ∧ l = l' := by
  simp only [entryText, List.cons_append, List.append_assoc, List.nil_append] at h
  obtain ⟨hkind, h⟩ := nameText_inj (List.append_cancel_left (List.tail_eq_of_cons_eq h))
  obtain ⟨hid, h⟩ := string_inj (List.append_cancel_left (List.tail_eq_of_cons_eq h))
  obtain ⟨hprevious, hl⟩ := nameText_inj (List.append_cancel_left (List.tail_eq_of_cons_eq h))
  obtain ⟨kind, id, previous⟩ := entry
  obtain ⟨kind', id', previous'⟩ := entry'
  obtain rfl := ownerKindName_inj hkind
  obtain rfl := previousName_inj hprevious
  obtain rfl : id = id' := hid
  exact ⟨rfl, List.tail_eq_of_cons_eq hl⟩

theorem entriesTail_inj {entries entries' : List LegacyImportTransactionEntry}
    (h : entriesTail entries ++ l = entriesTail entries' ++ l') : entries = entries' ∧ l = l' := by
  induction entries generalizing entries' with
  | nil =>
      cases entries' with
      | nil => exact ⟨rfl, List.tail_eq_of_cons_eq h⟩
      | cons entry entries => exact absurd (List.head_eq_of_cons_eq h) (by decide)
  | cons entry entries ih =>
      cases entries' with
      | nil => exact absurd (List.head_eq_of_cons_eq h) (by decide)
      | cons entry' entries' =>
          simp only [entriesTail, List.cons_append, List.append_assoc] at h
          obtain ⟨rfl, hrest⟩ := entryText_inj (List.tail_eq_of_cons_eq h)
          obtain ⟨rfl, hl⟩ := ih hrest
          exact ⟨rfl, hl⟩

theorem entriesText_inj {entries entries' : List LegacyImportTransactionEntry}
    (h : entriesText entries ++ l = entriesText entries' ++ l') : entries = entries' ∧ l = l' := by
  cases entries with
  | nil =>
      cases entries' with
      | nil => exact ⟨rfl, List.append_cancel_left h⟩
      | cons entry entries =>
          exact absurd (List.head_eq_of_cons_eq (List.tail_eq_of_cons_eq h)) (by decide)
  | cons entry entries =>
      cases entries' with
      | nil => exact absurd (List.head_eq_of_cons_eq (List.tail_eq_of_cons_eq h)) (by decide)
      | cons entry' entries' =>
          simp only [entriesText, List.cons_append, List.append_assoc] at h
          obtain ⟨rfl, hrest⟩ := entryText_inj (List.tail_eq_of_cons_eq h)
          obtain ⟨rfl, hl⟩ := entriesTail_inj hrest
          exact ⟨rfl, hl⟩

theorem boolText_inj {b b' : Bool}
    (h : (if b then "true" else "false").toList ++ ',' :: l =
      (if b' then "true" else "false").toList ++ ',' :: l') : b = b' ∧ l = l' := by
  cases b <;> cases b'
  · exact ⟨rfl, List.tail_eq_of_cons_eq (List.append_cancel_left h)⟩
  · exact absurd (List.head_eq_of_cons_eq h) (by decide)
  · exact absurd (List.head_eq_of_cons_eq h) (by decide)
  · exact ⟨rfl, List.tail_eq_of_cons_eq (List.append_cancel_left h)⟩

theorem payloadMembers_inj {payload payload' : ChecksumPayload}
    (h : payloadMembers payload l = payloadMembers payload' l') : payload = payload' ∧ l = l' := by
  unfold payloadMembers at h
  obtain ⟨h₁, h⟩ := string_inj (List.append_cancel_left h)
  obtain ⟨h₂, h⟩ := number_inj (by decide) (List.append_cancel_left (List.tail_eq_of_cons_eq h))
  obtain ⟨h₃, h⟩ := nameText_inj (List.append_cancel_left h)
  obtain ⟨h₄, h⟩ := number_inj (by decide) (List.append_cancel_left (List.tail_eq_of_cons_eq h))
  obtain ⟨h₅, h⟩ := string_inj (List.append_cancel_left h)
  obtain ⟨h₆, h⟩ := string_inj (List.append_cancel_left (List.tail_eq_of_cons_eq h))
  obtain ⟨h₇, h⟩ := string_inj (List.append_cancel_left (List.tail_eq_of_cons_eq h))
  obtain ⟨h₈, h⟩ := boolText_inj (List.append_cancel_left (List.tail_eq_of_cons_eq h))
  obtain ⟨h₉, h⟩ := nameText_inj (List.append_cancel_left h)
  obtain ⟨h₁₀, hl⟩ := entriesText_inj (List.append_cancel_left (List.tail_eq_of_cons_eq h))
  cases payload
  cases payload'
  cases h₁
  cases h₂
  cases slotName_inj h₃
  cases h₄
  cases hyphenated_inj h₅
  cases hexEncode_inj h₆
  cases hexEncode_inj h₇
  cases h₈
  cases phaseName_inj h₉
  cases h₁₀
  exact ⟨rfl, hl⟩

theorem eq_of_journalText {envelope envelope' : JournalEnvelope}
    (h : encodeUtf8 (journalText envelope) = encodeUtf8 (journalText envelope')) :
    envelope = envelope' := by
  obtain ⟨hpayload, hrest⟩ := payloadMembers_inj (List.tail_eq_of_cons_eq (encodeUtf8_inj h))
  obtain ⟨hchecksum, _⟩ := string_inj (List.append_cancel_left (List.tail_eq_of_cons_eq hrest))
  obtain ⟨payload, checksum⟩ := envelope
  obtain ⟨payload', checksum'⟩ := envelope'
  obtain rfl : payload = payload' := hpayload
  obtain rfl : checksum = checksum' := hchecksum
  rfl

/-- **The text of a journal determines its envelope**, and the text that the checksum covers
determines all that is not the checksum. -/
theorem journalText_inj (envelope envelope' : JournalEnvelope) :
    (encodeUtf8 (journalText envelope) = encodeUtf8 (journalText envelope') → envelope = envelope') ∧
    (encodeUtf8 (payloadText envelope.toChecksumPayload) =
        encodeUtf8 (payloadText envelope'.toChecksumPayload) →
      envelope.toChecksumPayload = envelope'.toChecksumPayload) := by
  refine ⟨eq_of_journalText, ?_⟩
  intro h
  exact (payloadMembers_inj (List.tail_eq_of_cons_eq (encodeUtf8_inj h))).1

end Injective

/-- A character that is written as it is, in one byte. -/
def Plain (c : Char) : Prop := escapeChar c = [c] ∧ c.utf8Size = 1

end Netcatty.Desktop
