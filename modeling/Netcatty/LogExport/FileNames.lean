import Netcatty.LogExport.Terminal
import Netcatty.Serial.FileName

/-! # Names of exported files

`safePathSegment` replaces the characters that a file system reserves, trims the rest, and appends
an underscore where Windows would take the segment for a device.  The underscore comes after an
extension, so the segment of a device name with an extension still names the device; of every
other text the segment is portable, and is kept where it is sanitized again
(`safeSegment_iff`).

`defaultExportFileName` cuts a segment before a suffix, and sanitizes what the cut leaves: the name
is a single path component, and within the limits in both encodings
(`defaultExportFileName_component`). -/

namespace Netcatty.LogExport

open Serial (isWhitespace isControl isReserved trim)
open Vault (Text utf8Len padded)

def maxPortableFileNameUtf8Bytes : ℕ := 255
def maxPortableFileNameUtf16Units : ℕ := 255

/-! ### Segments -/

def isFileNameUnsafe (character : Char) : Bool :=
  ['<', '>', ':', '"', '/', '\\', '|', '?', '*'].contains character

def isLegacyControl (character : Char) : Bool :=
  character.toNat ≤ 0x1f || (0x7f ≤ character.toNat && character.toNat ≤ 0x9f)

def replaceUnsafe (character : Char) : Char :=
  if isFileNameUnsafe character || isLegacyControl character then '_' else character

/-- The stem of a device, in any case. -/
def isDeviceStem (base : Text) : Bool :=
  let lower := base.map Char.toLower
  if ["con", "prn", "aux", "nul"].any (·.toList = lower) then true
  else
    ["com", "lpt"].any (·.toList = lower.take 3) &&
      [['1'], ['2'], ['3'], ['4'], ['5'], ['6'], ['7'], ['8'], ['9'], ['¹'], ['²'], ['³']].contains
        (lower.drop 3)

def isWindowsReservedDeviceName (value : Text) : Bool := isDeviceStem (value.takeWhile (· ≠ '.'))

def replaceTrailingDots (safe : Text) : Text :=
  safe.rdropWhile (· == '.') ++ List.replicate (safe.rtakeWhile (· == '.')).length '_'

def markDevice (safe : Text) : Text :=
  if isWindowsReservedDeviceName safe then safe ++ ['_'] else safe

def sanitizePathSegment (value : Text) : Option Text :=
  let safe := trim (value.map replaceUnsafe)
  if safe = [] ∨ safe = ['.'] ∨ safe = ['.', '.'] then none
  else some (markDevice (replaceTrailingDots safe))

def safePathSegment (value fallback : Text) : Text :=
  (sanitizePathSegment value).getD ((sanitizePathSegment fallback).getD "unknown".toList)

/-! ### File names -/

inductive ExportFormat where
  | plainText
  | raw
  | html
  deriving DecidableEq

def ExportFormat.defaultExtension : ExportFormat → Text
  | .plainText => "txt".toList
  | .raw => "log".toList
  | .html => "html".toList

def isLeapYear (year : ℕ) : Bool := year % 4 = 0 && (year % 100 ≠ 0 || year % 400 = 0)

def daysInMonth (year month : ℕ) : ℕ :=
  if month ∈ [1, 3, 5, 7, 8, 10, 12] then 31
  else if month ∈ [4, 6, 9, 11] then 30
  else if month = 2 then if isLeapYear year then 29 else 28
  else 0

/-- What `LocalDateTime::new` accepts. -/
structure LocalDateTime where
  year : ℕ
  month : ℕ
  day : ℕ
  hour : ℕ
  minute : ℕ
  second : ℕ
  year_range : 1 ≤ year ∧ year ≤ 9999
  month_range : 1 ≤ month ∧ month ≤ 12
  day_range : 1 ≤ day ∧ day ≤ daysInMonth year month
  time_range : hour ≤ 23 ∧ minute ≤ 59 ∧ second ≤ 59

/-- Every field has as many digits as its width. -/
def LocalDateTime.fileNameComponent (date : LocalDateTime) : Text :=
  padded 4 date.year ++ '-' :: padded 2 date.month ++ '-' :: padded 2 date.day ++
    'T' :: padded 2 date.hour ++ '-' :: padded 2 date.minute ++ '-' :: padded 2 date.second

def utf16Units (c : Char) : ℕ := if c.toNat < 0x10000 then 1 else 2

def utf16Len (s : Text) : ℕ := (s.map utf16Units).sum

/-- The loop of `truncate_unicode_component`, from the sizes of what is pushed so far. -/
def truncateFrom (maxUtf8Bytes maxUtf16Units : ℕ) : ℕ → ℕ → Text → Text
  | _, _, [] => []
  | bytes, units, character :: rest =>
      let nextUtf8Bytes := satAdd bytes character.utf8Size
      let nextUtf16Units := satAdd units (utf16Units character)
      if maxUtf8Bytes < nextUtf8Bytes ∨ maxUtf16Units < nextUtf16Units then []
      else character :: truncateFrom maxUtf8Bytes maxUtf16Units nextUtf8Bytes nextUtf16Units rest

def truncateUnicodeComponent (value : Text) (maxUtf8Bytes maxUtf16Units : ℕ) : Text :=
  truncateFrom maxUtf8Bytes maxUtf16Units 0 0 value

def boundedPathSegmentForSuffix (value fallback affix : Text) : Text :=
  let safe := safePathSegment value fallback
  let maxUtf8Bytes := maxPortableFileNameUtf8Bytes - utf8Len affix - 1
  let maxUtf16Units := maxPortableFileNameUtf16Units - utf16Len affix - 1
  let truncated := truncateUnicodeComponent safe maxUtf8Bytes maxUtf16Units
  (sanitizePathSegment truncated).getD
    (truncateUnicodeComponent "session".toList maxUtf8Bytes maxUtf16Units)

def exportSuffix (localDateTime : LocalDateTime) (preferred : ExportFormat) : Text :=
  '_' :: localDateTime.fileNameComponent ++ '.' :: preferred.defaultExtension

def defaultExportFileName (hostLabel hostname : Text) (localDateTime : LocalDateTime)
    (preferred : ExportFormat) : Text :=
  let source := if hostLabel.isEmpty then hostname else hostLabel
  let affix := exportSuffix localDateTime preferred
  boundedPathSegmentForSuffix source "session".toList affix ++ affix

/-! ### Characters -/

theorem isFileNameUnsafe_eq (c : Char) : isFileNameUnsafe c = isReserved c := rfl

theorem isLegacyControl_eq (c : Char) : isLegacyControl c = isControl c := by
  simp only [isLegacyControl, isControl, Nat.lt_succ_iff]

theorem replaceUnsafe_portable (c : Char) :
    isReserved (replaceUnsafe c) = false ∧ isControl (replaceUnsafe c) = false := by
  unfold replaceUnsafe
  split_ifs with h
  · exact ⟨rfl, rfl⟩
  · rwa [Bool.not_eq_true, Bool.or_eq_false_iff, isFileNameUnsafe_eq, isLegacyControl_eq] at h

theorem replaceUnsafe_of_portable {c : Char} (h : isReserved c = false ∧ isControl c = false) :
    replaceUnsafe c = c := by
  rw [replaceUnsafe, isFileNameUnsafe_eq, isLegacyControl_eq, h.1, h.2]
  rfl

theorem replaceUnsafe_eq_or (c : Char) : replaceUnsafe c = c ∨ replaceUnsafe c = '_' := by
  unfold replaceUnsafe
  split_ifs
  · exact .inr rfl
  · exact .inl rfl

theorem replaceUnsafe_eq_dot {c : Char} : replaceUnsafe c = '.' ↔ c = '.' := by
  constructor
  · intro h
    rcases replaceUnsafe_eq_or c with heq | heq
    · exact heq ▸ h
    · exact absurd (heq.symm.trans h) (by decide)
  · rintro rfl
    rfl

/-! ### The text between the blanks -/

/-- A blank that is not replaced before the ends are trimmed. -/
def isOuterBlank (c : Char) : Bool := isWhitespace c && !isControl c

/-- A text without the blanks at its ends. -/
def core (text : Text) : Text := (text.dropWhile isOuterBlank).rdropWhile isOuterBlank

theorem isWhitespace_replaceUnsafe (c : Char) :
    isWhitespace (replaceUnsafe c) = isOuterBlank c := by
  unfold isOuterBlank
  cases hcontrol : isControl c with
  | true =>
      have h : replaceUnsafe c = '_' := by
        rw [replaceUnsafe, isLegacyControl_eq, hcontrol, Bool.or_true]
        rfl
      rw [h, Bool.not_true, Bool.and_false]
      rfl
  | false =>
      cases hreserved : isReserved c with
      | true =>
          have h : replaceUnsafe c = '_' := by
            rw [replaceUnsafe, isFileNameUnsafe_eq, hreserved, Bool.true_or]
            rfl
          have hmem : c ∈ ['<', '>', ':', '"', '/', '\\', '|', '?', '*'] := by
            simpa [isReserved] using hreserved
          have hnot : isWhitespace c = false := by
            simp only [List.mem_cons, List.not_mem_nil, or_false] at hmem
            rcases hmem with rfl | rfl | rfl | rfl | rfl | rfl | rfl | rfl | rfl <;> rfl
          rw [h, hnot]
          rfl
      | false => rw [replaceUnsafe_of_portable ⟨hreserved, hcontrol⟩, Bool.not_false, Bool.and_true]

theorem trim_map_replaceUnsafe (text : Text) :
    trim (text.map replaceUnsafe) = (core text).map replaceUnsafe := by
  have hblank : isWhitespace ∘ replaceUnsafe = isOuterBlank := funext isWhitespace_replaceUnsafe
  have hright : ∀ l : Text, (l.map replaceUnsafe).rdropWhile isWhitespace =
      (l.rdropWhile isOuterBlank).map replaceUnsafe := by
    intro l
    rw [List.rdropWhile, List.rdropWhile, ← List.map_reverse, List.dropWhile_map, hblank,
      List.map_reverse]
  rw [trim, List.dropWhile_map, hblank, hright, core]

/-- Nothing is left of the text but at most two dots. -/
def IsVoid (text : Text) : Prop := core text ∈ [[], ['.'], ['.', '.']]

theorem isVoid_iff (text : Text) :
    IsVoid text ↔ (core text).map replaceUnsafe = [] ∨ (core text).map replaceUnsafe = ['.'] ∨
      (core text).map replaceUnsafe = ['.', '.'] := by
  unfold IsVoid
  generalize core text = l
  rcases l with _ | ⟨a, _ | ⟨b, _ | ⟨c, l⟩⟩⟩ <;> simp [replaceUnsafe_eq_dot]

/-! ### Settled segments -/

theorem head_dropWhile_eq_self {p : Char → Bool} {first : Char} {rest : Text}
    (h : (first :: rest).dropWhile p = first :: rest) : p first = false := by
  rw [List.dropWhile_cons] at h
  split_ifs at h with hfirst
  · have hlength := congrArg List.length h
    have := (List.dropWhile_suffix p (l := rest)).length_le
    rw [List.length_cons] at hlength
    omega
  · simpa using hfirst

/-- What the segments are, apart from devices. -/
structure SettledSegment (segment : Text) : Prop where
  nonempty : segment ≠ []
  no_special : ∀ c ∈ segment, isReserved c = false ∧ isControl c = false
  no_leading : segment.dropWhile isWhitespace = segment
  no_trailing : ∀ c ∈ segment.getLast?, c ≠ '.' ∧ isWhitespace c = false

namespace SettledSegment

variable {segment : Text}

theorem trim_eq (h : SettledSegment segment) : trim segment = segment := by
  rw [trim, h.no_leading, List.rdropWhile_eq_self_iff]
  intro hne
  have := (h.no_trailing _ (List.getLast_mem_getLast? hne)).2
  rw [this]
  exact Bool.false_ne_true

theorem map_replaceUnsafe (h : SettledSegment segment) : segment.map replaceUnsafe = segment := by
  conv_rhs => rw [← List.map_id segment]
  exact List.map_congr_left fun c hc => replaceUnsafe_of_portable (h.no_special c hc)

theorem replaceTrailingDots_eq (h : SettledSegment segment) :
    replaceTrailingDots segment = segment := by
  have hlast : ∀ hne : segment ≠ [], ¬ (segment.getLast hne == '.') = true := by
    intro hne heq
    exact (h.no_trailing _ (List.getLast_mem_getLast? hne)).1 (beq_iff_eq.mp heq)
  rw [replaceTrailingDots, List.rdropWhile_eq_self_iff.mpr hlast,
    List.rtakeWhile_eq_nil_iff.mpr hlast]
  exact List.append_nil _

theorem sanitize (h : SettledSegment segment) :
    sanitizePathSegment segment = some (markDevice segment) := by
  have hdots : ∀ n, segment ≠ List.replicate n '.' ++ ['.'] := by
    rintro n rfl
    exact (h.no_trailing '.' (by simp)).1 rfl
  have hnot : ¬ (segment = [] ∨ segment = ['.'] ∨ segment = ['.', '.']) := by
    rintro (heq | heq | heq)
    · exact h.nonempty heq
    · exact hdots 0 heq
    · exact hdots 1 heq
  simp only [sanitizePathSegment, h.map_replaceUnsafe, h.trim_eq, if_neg hnot,
    h.replaceTrailingDots_eq]

theorem concat_underscore (h : SettledSegment segment) : SettledSegment (segment ++ ['_']) := by
  refine ⟨by simp, fun c hc => ?_, ?_, fun c hc => ?_⟩
  · rcases List.mem_append.mp hc with hc | hc
    · exact h.no_special c hc
    · rw [List.mem_singleton.mp hc]
      exact ⟨rfl, rfl⟩
  · cases hsegment : segment with
    | nil => rfl
    | cons a rest =>
        have hfirst := head_dropWhile_eq_self (hsegment ▸ h.no_leading)
        rw [List.cons_append, List.dropWhile_cons, hfirst]
        rfl
  · rw [List.getLast?_concat, Option.mem_some_iff] at hc
    rw [← hc]
    exact ⟨by decide, rfl⟩

theorem markDevice (h : SettledSegment segment) : SettledSegment (markDevice segment) := by
  unfold LogExport.markDevice
  split_ifs
  · exact h.concat_underscore
  · exact h

end SettledSegment

/-! ### Devices -/

/-- What the stems of devices are written with. -/
def deviceLetters : Text := "conprauxlmt123456789¹²³".toList

theorem mem_deviceLetters {letters : Text} (h : letters.all (deviceLetters.contains ·) = true) :
    ∀ c ∈ letters, c ∈ deviceLetters := fun c hc =>
  List.contains_iff_mem.mp (List.all_eq_true.mp h c hc)

theorem isDeviceStem_letters {base : Text} (h : isDeviceStem base = true) :
    ∀ c ∈ base, c.toLower ∈ deviceLetters := by
  have hsub : ∀ c ∈ base.map Char.toLower, c ∈ deviceLetters := by
    unfold isDeviceStem at h
    generalize base.map Char.toLower = lower at h
    simp only at h
    split_ifs at h with hname
    · obtain ⟨name, hmem, heq⟩ := List.any_eq_true.mp hname
      rw [← of_decide_eq_true heq]
      simp only [List.mem_cons, List.not_mem_nil, or_false] at hmem
      rcases hmem with rfl | rfl | rfl | rfl <;> exact mem_deviceLetters (by decide)
    · rw [Bool.and_eq_true] at h
      obtain ⟨hport, hnumber⟩ := h
      intro c hc
      rw [← List.take_append_drop 3 lower, List.mem_append] at hc
      rcases hc with hc | hc
      · obtain ⟨name, hmem, heq⟩ := List.any_eq_true.mp hport
        rw [← of_decide_eq_true heq] at hc
        simp only [List.mem_cons, List.not_mem_nil, or_false] at hmem
        rcases hmem with rfl | rfl <;> exact mem_deviceLetters (by decide) c hc
      · have hmem := List.contains_iff_mem.mp hnumber
        simp only [List.mem_cons, List.not_mem_nil, or_false] at hmem
        rcases hmem with heq | heq | heq | heq | heq | heq | heq | heq | heq | heq | heq | heq <;>
          (rw [heq, List.mem_singleton] at hc; subst hc; decide)
  exact fun c hc => hsub _ (List.mem_map_of_mem hc)

/-- Neither is a mark of the sanitizer in the stem of a device. -/
theorem isDeviceStem_marks {base : Text} (h : isDeviceStem base = true) :
    '.' ∉ base ∧ '_' ∉ base :=
  ⟨fun hmem => absurd (isDeviceStem_letters h _ hmem) (by decide),
    fun hmem => absurd (isDeviceStem_letters h _ hmem) (by decide)⟩

theorem portable_of_deviceLetters {c : Char} (h : c.toLower ∈ deviceLetters) :
    replaceUnsafe c = c := by
  refine replaceUnsafe_of_portable ⟨?_, ?_⟩
  · rw [Bool.eq_false_iff]
    intro hreserved
    have hmem : c ∈ ['<', '>', ':', '"', '/', '\\', '|', '?', '*'] := by
      simpa [isReserved] using hreserved
    simp only [List.mem_cons, List.not_mem_nil, or_false] at hmem
    rcases hmem with rfl | rfl | rfl | rfl | rfl | rfl | rfl | rfl | rfl <;>
      exact absurd h (by decide)
  · have hletters : deviceLetters.all (fun d => !isControl d) = true := by decide
    have hlower := List.all_eq_true.mp hletters _ h
    unfold Char.toLower at hlower
    split_ifs at hlower with hupper
    · have hrange : 65 ≤ c.toNat ∧ c.toNat ≤ 90 := hupper
      simp only [isControl, Bool.or_eq_false_iff, Bool.and_eq_false_iff, decide_eq_false_iff_not]
      omega
    · simpa using hlower

theorem isWindowsReservedDeviceName_dot {stem : Text} (h : '.' ∉ stem) (rest : Text) :
    isWindowsReservedDeviceName (stem ++ '.' :: rest) = isDeviceStem stem := by
  have hall : ∀ c ∈ stem, decide (c ≠ '.') = true := by
    intro c hc
    simpa using fun heq : c = '.' => h (heq ▸ hc)
  rw [isWindowsReservedDeviceName, List.takeWhile_append_of_pos hall]
  simp

theorem isWindowsReservedDeviceName_dotless {name : Text} (h : '.' ∉ name) :
    isWindowsReservedDeviceName name = isDeviceStem name := by
  have hall : ∀ c ∈ name, decide (c ≠ '.') = true := by
    intro c hc
    simpa using fun heq : c = '.' => h (heq ▸ hc)
  rw [isWindowsReservedDeviceName, List.takeWhile_eq_self_iff.mpr hall]

/-- The underscore does not come before the first dot. -/
theorem isWindowsReservedDeviceName_markDevice (segment : Text) :
    isWindowsReservedDeviceName (markDevice segment) = true ↔
      isWindowsReservedDeviceName segment = true ∧ '.' ∈ segment := by
  unfold markDevice
  split_ifs with h
  · by_cases hdot : '.' ∈ segment
    · obtain ⟨stem, rest, rfl, hstem⟩ := List.eq_append_cons_of_mem hdot
      rw [List.append_assoc, List.cons_append, isWindowsReservedDeviceName_dot hstem,
        isWindowsReservedDeviceName_dot hstem]
      exact ⟨fun hdevice => ⟨hdevice, hdot⟩, And.left⟩
    · have hmarked : '.' ∉ segment ++ ['_'] := by simp [hdot]
      rw [isWindowsReservedDeviceName_dotless hmarked]
      exact ⟨fun hdevice => absurd (by simp) (isDeviceStem_marks hdevice).2,
        fun hdevice => absurd hdevice.2 hdot⟩
  · exact ⟨fun hdevice => absurd hdevice h, fun hdevice => absurd hdevice.1 h⟩

/-! ### Trailing dots -/

/-- A device is written before a dot that is not one of the trailing ones. -/
def DeviceWithExtension (text : Text) : Prop :=
  ∃ stem rest, text = stem ++ '.' :: rest ∧ isDeviceStem stem = true ∧ ∃ c ∈ rest, c ≠ '.'

theorem rdropWhile_append_of_mem (l : Text) {rest : Text} (h : ∃ c ∈ rest, c ≠ '.') :
    (l ++ rest).rdropWhile (· == '.') = l ++ rest.rdropWhile (· == '.') := by
  have hkept : (rest.reverse.dropWhile (· == '.')).isEmpty = false := by
    obtain ⟨c, hc, hne⟩ := h
    rw [Bool.eq_false_iff]
    intro hempty
    have hall := List.dropWhile_eq_nil_iff.mp (List.isEmpty_iff.mp hempty)
    exact hne (beq_iff_eq.mp (hall c (List.mem_reverse.mpr hc)))
  rw [List.rdropWhile, List.reverse_append, List.dropWhile_append, hkept]
  simp [List.rdropWhile]

theorem device_replaceTrailingDots_iff (safe : Text) :
    isWindowsReservedDeviceName (replaceTrailingDots safe) = true ∧ '.' ∈ replaceTrailingDots safe ↔
      DeviceWithExtension safe := by
  constructor
  · rintro ⟨hdevice, hdot⟩
    have hbody : '.' ∈ safe.rdropWhile (· == '.') := by
      rcases List.mem_append.mp hdot with h | h
      · exact h
      · exact absurd (List.eq_of_mem_replicate h) (by decide)
    obtain ⟨stem, rest, hsplit, hstem⟩ := List.eq_append_cons_of_mem hbody
    rw [replaceTrailingDots, hsplit, List.append_assoc, List.cons_append,
      isWindowsReservedDeviceName_dot hstem] at hdevice
    have hwhole : safe.rdropWhile (· == '.') ++ safe.rtakeWhile (· == '.') = safe :=
      List.rdropWhile_append_rtakeWhile
    rw [hsplit, List.append_assoc, List.cons_append] at hwhole
    refine ⟨stem, rest ++ safe.rtakeWhile (· == '.'), hwhole.symm, hdevice, ?_⟩
    rcases List.eq_nil_or_concat rest with rfl | ⟨init, last, rfl⟩
    · exfalso
      have hne : safe.rdropWhile (· == '.') ≠ [] := by simp [hsplit]
      have hlast := List.rdropWhile_last_not (· == '.') safe hne
      simp [hsplit] at hlast
    · have hne : safe.rdropWhile (· == '.') ≠ [] := by simp [hsplit]
      have hlast := List.rdropWhile_last_not (· == '.') safe hne
      refine ⟨last, by simp, ?_⟩
      simpa [hsplit] using hlast
  · rintro ⟨stem, rest, rfl, hstem, hrest⟩
    have hdots : '.' ∉ stem := (isDeviceStem_marks hstem).1
    have hbody : (stem ++ '.' :: rest).rdropWhile (· == '.') =
        stem ++ '.' :: rest.rdropWhile (· == '.') := by
      rw [List.append_cons, rdropWhile_append_of_mem _ hrest, ← List.append_cons]
    rw [replaceTrailingDots, hbody, List.append_assoc, List.cons_append,
      isWindowsReservedDeviceName_dot hdots]
    exact ⟨hstem, by simp⟩

/-- Replacing neither makes a device nor hides one. -/
theorem deviceWithExtension_map (text : Text) :
    DeviceWithExtension (text.map replaceUnsafe) ↔ DeviceWithExtension text := by
  constructor
  · rintro ⟨stem, rest, hsplit, hstem, c, hc, hne⟩
    obtain ⟨stem', tail, rfl, rfl, htail⟩ := List.map_eq_append_iff.mp hsplit
    obtain ⟨dot, rest', rfl, hdot, rfl⟩ := List.map_eq_cons_iff.mp htail
    rw [replaceUnsafe_eq_dot] at hdot
    subst hdot
    have hmarks := (isDeviceStem_marks hstem).2
    have hsame : stem'.map replaceUnsafe = stem' := by
      conv_rhs => rw [← List.map_id stem']
      refine List.map_congr_left fun d hd => ?_
      rcases replaceUnsafe_eq_or d with heq | heq
      · exact heq
      · exact absurd (heq ▸ List.mem_map_of_mem hd) hmarks
    obtain ⟨d, hd, rfl⟩ := List.mem_map.mp hc
    refine ⟨stem', rest', rfl, hsame ▸ hstem, d, hd, ?_⟩
    rintro rfl
    exact hne rfl
  · rintro ⟨stem, rest, rfl, hstem, c, hc, hne⟩
    have hsame : stem.map replaceUnsafe = stem := by
      conv_rhs => rw [← List.map_id stem]
      exact List.map_congr_left fun d hd =>
        portable_of_deviceLetters (isDeviceStem_letters hstem d hd)
    refine ⟨stem, rest.map replaceUnsafe, ?_, hstem, replaceUnsafe c, List.mem_map_of_mem hc, ?_⟩
    · rw [List.map_append, List.map_cons, hsame]
      rfl
    · rwa [Ne, replaceUnsafe_eq_dot]

theorem getLast?_replaceTrailingDots {safe : Text}
    (hblank : ∀ c ∈ safe.getLast?, isWhitespace c = false) :
    ∀ c ∈ (replaceTrailingDots safe).getLast?, c ≠ '.' ∧ isWhitespace c = false := by
  intro c hc
  rw [replaceTrailingDots, List.getLast?_append] at hc
  cases hdots : safe.rtakeWhile (· == '.') with
  | nil =>
      have hwhole : safe.rdropWhile (· == '.') ++ safe.rtakeWhile (· == '.') = safe :=
        List.rdropWhile_append_rtakeWhile
      rw [hdots, List.append_nil] at hwhole
      rw [hdots, hwhole] at hc
      have hlast : c ∈ safe.getLast? := by simpa using hc
      refine ⟨?_, hblank c hlast⟩
      obtain ⟨hne, rfl⟩ := List.mem_getLast?_eq_getLast hlast
      simpa using List.rtakeWhile_eq_nil_iff.mp hdots hne
  | cons dot more =>
      rw [hdots, List.length_cons, List.replicate_succ', List.getLast?_concat, Option.some_or,
        Option.mem_some_iff] at hc
      rw [← hc]
      exact ⟨by decide, rfl⟩

/-- Replacing the trailing dots of a clean name settles it. -/
theorem settled_replaceTrailingDots {safe : Text} (h : Serial.CleanName safe) :
    SettledSegment (replaceTrailingDots safe) := by
  have hsub : ∀ c ∈ replaceTrailingDots safe, c ∈ safe ∨ c = '_' := by
    intro c hc
    rcases List.mem_append.mp hc with hc | hc
    · exact .inl ((List.rdropWhile_prefix _ _).subset hc)
    · exact .inr (List.eq_of_mem_replicate hc)
  have hlength : (replaceTrailingDots safe).length = safe.length := by
    have hwhole : safe.rdropWhile (· == '.') ++ safe.rtakeWhile (· == '.') = safe :=
      List.rdropWhile_append_rtakeWhile
    rw [replaceTrailingDots, List.length_append, List.length_replicate, ← List.length_append,
      hwhole]
  refine ⟨?_, fun c hc => ?_, ?_, getLast?_replaceTrailingDots fun c hc => ?_⟩
  · intro hnil
    rw [hnil] at hlength
    exact h.not_dots.1 (List.length_eq_zero_iff.mp hlength.symm)
  · rcases hsub c hc with hc | rfl
    · exact (h.no_special c hc).symm
    · exact ⟨rfl, rfl⟩
  · cases hdots : replaceTrailingDots safe with
    | nil => rfl
    | cons first rest =>
        have hfirst : isWhitespace first = false := by
          unfold replaceTrailingDots at hdots
          cases hbody : safe.rdropWhile (· == '.') with
          | nil =>
              rw [hbody, List.nil_append] at hdots
              have hmem : first ∈ List.replicate (safe.rtakeWhile (· == '.')).length '_' :=
                hdots ▸ List.mem_cons_self
              rw [List.eq_of_mem_replicate hmem]
              rfl
          | cons a more =>
              rw [hbody, List.cons_append, List.cons.injEq] at hdots
              obtain ⟨dots, hsafe⟩ := List.rdropWhile_prefix (· == '.') safe
              rw [hbody, List.cons_append] at hsafe
              exact head_dropWhile_eq_self (hdots.1 ▸ hsafe ▸ h.no_leading)
        rw [List.dropWhile_cons, hfirst]
        rfl
  · obtain ⟨hne, rfl⟩ := List.mem_getLast?_eq_getLast hc
    have := List.rdropWhile_eq_self_iff.mp h.no_trailing hne
    simpa using this

/-! ### What is portable -/

/-- The segment is one that every platform takes as a name. -/
structure PortableSegment (segment : Text) : Prop where
  nonempty : segment ≠ []
  no_special : ∀ c ∈ segment, isReserved c = false ∧ isControl c = false
  no_trailing : ∀ c ∈ segment.getLast?, c ≠ '.' ∧ isWhitespace c = false
  not_device : isWindowsReservedDeviceName segment = false

/-- The segment is portable, and sanitizing it again changes nothing. -/
def SafeSegment (segment : Text) : Prop :=
  PortableSegment segment ∧ ∀ fallback, safePathSegment segment fallback = segment

theorem SettledSegment.safe_iff {segment : Text} (h : SettledSegment segment) :
    SafeSegment (LogExport.markDevice segment) ↔
      ¬ (isWindowsReservedDeviceName segment = true ∧ '.' ∈ segment) := by
  have hmarked := h.markDevice
  rw [← isWindowsReservedDeviceName_markDevice]
  constructor
  · rintro ⟨hportable, -⟩ hdevice
    rw [hportable.not_device] at hdevice
    cases hdevice
  · intro hdevice
    rw [Bool.not_eq_true] at hdevice
    refine ⟨⟨hmarked.nonempty, hmarked.no_special, hmarked.no_trailing, hdevice⟩,
      fun fallback => ?_⟩
    rw [safePathSegment, hmarked.sanitize, Option.getD_some, LogExport.markDevice, if_neg]
    rw [hdevice]
    exact Bool.false_ne_true

/-- The text without its outer blanks is a device with an extension. -/
def NamesDevice (text : Text) : Prop := DeviceWithExtension (core text)

theorem cleanName_core {text : Text} (h : ¬ IsVoid text) :
    Serial.CleanName ((core text).map replaceUnsafe) := by
  rw [isVoid_iff, not_or, not_or] at h
  refine ⟨fun c hc => ?_, ?_, ?_, h⟩
  · obtain ⟨d, -, rfl⟩ := List.mem_map.mp hc
    exact (replaceUnsafe_portable d).symm
  · rw [← trim_map_replaceUnsafe]
    exact Serial.dropWhile_trim _
  · rw [← trim_map_replaceUnsafe]
    exact List.rdropWhile_idempotent _ _

theorem sanitizePathSegment_void {text : Text} (h : IsVoid text) :
    sanitizePathSegment text = none := by
  simp only [sanitizePathSegment, trim_map_replaceUnsafe]
  exact if_pos ((isVoid_iff text).mp h)

theorem sanitizePathSegment_of_not_void {text : Text} (h : ¬ IsVoid text) :
    sanitizePathSegment text =
      some (markDevice (replaceTrailingDots ((core text).map replaceUnsafe))) := by
  simp only [sanitizePathSegment, trim_map_replaceUnsafe]
  exact if_neg fun hvoid => h ((isVoid_iff text).mpr hvoid)

theorem safeSegment_sanitized_iff {text : Text} (h : ¬ IsVoid text) :
    SafeSegment (markDevice (replaceTrailingDots ((core text).map replaceUnsafe))) ↔
      ¬ NamesDevice text := by
  rw [(settled_replaceTrailingDots (cleanName_core h)).safe_iff, device_replaceTrailingDots_iff,
    deviceWithExtension_map, NamesDevice]

theorem not_namesDevice_of_void {text : Text} (h : IsVoid text) : ¬ NamesDevice text := by
  rintro ⟨stem, rest, hcore, -, c, hc, hne⟩
  have hmem : c ∈ core text := by
    rw [hcore]
    exact List.mem_append_right _ (List.mem_cons_of_mem _ hc)
  simp only [IsVoid, List.mem_cons, List.not_mem_nil, or_false] at h
  rcases h with h | h | h <;> simp [h, hne] at hmem

theorem settled_unknown : SettledSegment "unknown".toList where
  nonempty := by decide
  no_special := fun c hc => by
    have hall : "unknown".toList.all (fun d => !isReserved d && !isControl d) = true := by
      decide
    simpa using List.all_eq_true.mp hall c hc
  no_leading := by decide
  no_trailing := fun c hc => by
    have hlast : "unknown".toList.getLast? = some 'n' := by decide
    rw [hlast, Option.mem_some_iff] at hc
    rw [← hc]
    exact ⟨by decide, rfl⟩

theorem markDevice_unknown : markDevice "unknown".toList = "unknown".toList := by decide

/-- A segment is safe unless the text that it is made of is a device with an extension. -/
theorem safeSegment_iff (value fallback : Text) :
    SafeSegment (safePathSegment value fallback) ↔
      ¬ NamesDevice value ∧ (IsVoid value → ¬ NamesDevice fallback) := by
  unfold safePathSegment
  by_cases hvalue : IsVoid value
  · rw [sanitizePathSegment_void hvalue, Option.getD_none]
    by_cases hfallback : IsVoid fallback
    · rw [sanitizePathSegment_void hfallback, Option.getD_none, ← markDevice_unknown,
        settled_unknown.safe_iff]
      exact ⟨fun _ => ⟨not_namesDevice_of_void hvalue, fun _ => not_namesDevice_of_void hfallback⟩,
        fun _ h => absurd h.1 (by decide)⟩
    · rw [sanitizePathSegment_of_not_void hfallback, Option.getD_some,
        safeSegment_sanitized_iff hfallback]
      exact ⟨fun h => ⟨not_namesDevice_of_void hvalue, fun _ => h⟩, fun h => h.2 hvalue⟩
  · rw [sanitizePathSegment_of_not_void hvalue, Option.getD_some, safeSegment_sanitized_iff hvalue]
    exact ⟨fun h => ⟨h, fun hvoid => absurd hvoid hvalue⟩, And.left⟩

/-! ### Lengths -/

/-- The length of a text in an encoding, from that of its characters. -/
def weight (w : Char → ℕ) (text : Text) : ℕ := (text.map w).sum

/-- Every character takes a place, and one of ASCII takes one. -/
structure IsEncoding (w : Char → ℕ) : Prop where
  pos : ∀ c, 1 ≤ w c
  ascii : ∀ c : Char, c.toNat < 128 → w c = 1

theorem isEncoding_utf8 : IsEncoding Char.utf8Size where
  pos := Char.utf8Size_pos
  ascii := fun c hc => Char.utf8Size_eq_one_iff.mpr (by
    rw [UInt32.le_iff_toNat_le]
    exact Nat.le_of_lt_succ hc)

theorem isEncoding_utf16 : IsEncoding utf16Units where
  pos := fun c => by unfold utf16Units; split_ifs <;> omega
  ascii := fun c hc => if_pos (by omega)

section Weight

variable {w : Char → ℕ}

theorem weight_append (text more : Text) :
    weight w (text ++ more) = weight w text + weight w more := by
  simp [weight]

theorem weight_cons (c : Char) (text : Text) : weight w (c :: text) = w c + weight w text := by
  simp [weight]

theorem weight_of_ascii (hw : IsEncoding w) {text : Text} (h : ∀ c ∈ text, c.toNat < 128) :
    weight w text = text.length := by
  induction text with
  | nil => rfl
  | cons c text ih =>
      rw [weight_cons, hw.ascii c (h c List.mem_cons_self),
        ih fun d hd => h d (List.mem_cons_of_mem _ hd), List.length_cons, Nat.add_comm]

theorem weight_sublist {text more : Text} (h : text.Sublist more) :
    weight w text ≤ weight w more := by
  induction h with
  | slnil => exact le_rfl
  | cons c _ ih => rw [weight_cons]; omega
  | cons_cons c _ ih => rw [weight_cons, weight_cons]; omega

theorem weight_map_replaceUnsafe_le (hw : IsEncoding w) (text : Text) :
    weight w (text.map replaceUnsafe) ≤ weight w text := by
  induction text with
  | nil => exact le_rfl
  | cons c text ih =>
      rw [List.map_cons, weight_cons, weight_cons]
      have hc : w (replaceUnsafe c) ≤ w c := by
        rcases replaceUnsafe_eq_or c with h | h
        · rw [h]
        · rw [h, hw.ascii '_' (by decide)]
          exact hw.pos c
      omega

theorem weight_replaceTrailingDots (hw : IsEncoding w) (safe : Text) :
    weight w (replaceTrailingDots safe) = weight w safe := by
  have hwhole : safe.rdropWhile (· == '.') ++ safe.rtakeWhile (· == '.') = safe :=
    List.rdropWhile_append_rtakeWhile
  have hdots : weight w (safe.rtakeWhile (· == '.')) = (safe.rtakeWhile (· == '.')).length := by
    refine weight_of_ascii hw fun c hc => ?_
    have hdot := List.mem_rtakeWhile_imp hc
    rw [beq_iff_eq.mp hdot]
    decide
  have hmarks : weight w (List.replicate (safe.rtakeWhile (· == '.')).length '_') =
      (safe.rtakeWhile (· == '.')).length := by
    rw [weight_of_ascii hw, List.length_replicate]
    intro c hc
    rw [List.eq_of_mem_replicate hc]
    decide
  conv_rhs => rw [← hwhole, weight_append, hdots]
  rw [replaceTrailingDots, weight_append, hmarks]

theorem weight_markDevice_le (hw : IsEncoding w) (safe : Text) :
    weight w (markDevice safe) ≤ weight w safe + 1 := by
  unfold markDevice
  split_ifs
  · have hmark : weight w ['_'] = 1 := weight_of_ascii hw fun c hc => by
      rw [List.mem_singleton.mp hc]
      decide
    rw [weight_append, hmark]
  · omega

/-- Sanitizing adds at most the mark of a device. -/
theorem weight_sanitizePathSegment_le (hw : IsEncoding w) {value segment : Text}
    (h : sanitizePathSegment value = some segment) : weight w segment ≤ weight w value + 1 := by
  unfold sanitizePathSegment at h
  simp only at h
  split_ifs at h
  obtain rfl := Option.some.inj h
  have htrim : weight w (trim (value.map replaceUnsafe)) ≤ weight w (value.map replaceUnsafe) :=
    weight_sublist ((List.rdropWhile_prefix _ _).sublist.trans (List.dropWhile_sublist _))
  calc weight w (markDevice (replaceTrailingDots (trim (value.map replaceUnsafe))))
      ≤ weight w (replaceTrailingDots (trim (value.map replaceUnsafe))) + 1 :=
        weight_markDevice_le hw _
    _ = weight w (trim (value.map replaceUnsafe)) + 1 := by rw [weight_replaceTrailingDots hw]
    _ ≤ weight w value + 1 :=
        Nat.succ_le_succ (htrim.trans (weight_map_replaceUnsafe_le hw value))

end Weight

theorem satAdd_of_le {a b limit : ℕ} (hlimit : limit < usizeLimit - 1) (h : satAdd a b ≤ limit) :
    satAdd a b = a + b := by
  unfold satAdd at h ⊢
  omega

/-- What the loop pushes keeps within both limits. -/
theorem truncateFrom_within {maxUtf8Bytes maxUtf16Units : ℕ}
    (hbytes : maxUtf8Bytes < usizeLimit - 1) (hunits : maxUtf16Units < usizeLimit - 1) (text : Text) {bytes units : ℕ}
    (h : bytes ≤ maxUtf8Bytes ∧ units ≤ maxUtf16Units) :
    bytes + weight Char.utf8Size (truncateFrom maxUtf8Bytes maxUtf16Units bytes units text) ≤
        maxUtf8Bytes ∧
      units + weight utf16Units (truncateFrom maxUtf8Bytes maxUtf16Units bytes units text) ≤
        maxUtf16Units := by
  induction text generalizing bytes units with
  | nil => exact h
  | cons c text ih =>
      unfold truncateFrom
      simp only
      split_ifs with hover
      · exact h
      · rw [not_or, not_lt, not_lt] at hover
        have hkept := ih hover
        rw [satAdd_of_le hbytes hover.1, satAdd_of_le hunits hover.2] at hkept ⊢
        rw [weight_cons, weight_cons]
        omega

theorem truncateFrom_isPrefix (maxUtf8Bytes maxUtf16Units bytes units : ℕ) (text : Text) :
    truncateFrom maxUtf8Bytes maxUtf16Units bytes units text <+: text := by
  induction text generalizing bytes units with
  | nil => exact List.prefix_rfl
  | cons c text ih =>
      unfold truncateFrom
      simp only
      split_ifs
      · exact List.nil_prefix
      · exact (List.prefix_cons_inj c).mpr (ih _ _)

/-! ### The suffix -/

/-- What the suffix is written with. -/
def IsSuffixChar (c : Char) : Prop := c.toNat < 128 ∧ isReserved c = false ∧ isControl c = false

theorem padded_suffixChar (width n : ℕ) : ∀ c ∈ padded width n, IsSuffixChar c := by
  intro c hc
  have hrange : 48 ≤ c.toNat ∧ c.toNat ≤ 57 :=
    Char.isDigit_iff_toNat.mp (Vault.padded_isDigit width n c hc)
  refine ⟨by omega, ?_, ?_⟩
  · rw [Bool.eq_false_iff]
    intro hreserved
    have hmem : c ∈ ['<', '>', ':', '"', '/', '\\', '|', '?', '*'] := by
      simpa [isReserved] using hreserved
    simp only [List.mem_cons, List.not_mem_nil, or_false] at hmem
    rcases hmem with rfl | rfl | rfl | rfl | rfl | rfl | rfl | rfl | rfl <;>
      exact absurd hrange (by decide)
  · simp only [isControl, Bool.or_eq_false_iff, Bool.and_eq_false_iff, decide_eq_false_iff_not]
    omega

theorem defaultExtension_suffixChar (preferred : ExportFormat) :
    ∀ c ∈ preferred.defaultExtension, IsSuffixChar c := by
  have hall : preferred.defaultExtension.all
      (fun c => c.toNat < 128 && !isReserved c && !isControl c) = true := by
    cases preferred <;> decide
  intro c hc
  simpa [IsSuffixChar, and_assoc] using List.all_eq_true.mp hall c hc

theorem exportSuffix_suffixChar (date : LocalDateTime) (preferred : ExportFormat) :
    ∀ c ∈ exportSuffix date preferred, IsSuffixChar c := by
  have hmark : ∀ c, c = '_' ∨ c = '-' ∨ c = 'T' ∨ c = '.' → IsSuffixChar c := by
    rintro c (rfl | rfl | rfl | rfl) <;> exact ⟨by decide, rfl, rfl⟩
  have hdate : ∀ c ∈ date.fileNameComponent, IsSuffixChar c := by
    intro c hc
    simp only [LocalDateTime.fileNameComponent, List.mem_append, List.mem_cons] at hc
    rcases hc with ((((hc | rfl | hc) | rfl | hc) | rfl | hc) | rfl | hc) | rfl | hc
    all_goals first | exact padded_suffixChar _ _ c hc | exact hmark _ (by decide)
  intro c hc
  rw [exportSuffix, List.mem_append, List.mem_cons, List.mem_cons] at hc
  rcases hc with (rfl | hc) | rfl | hc
  · exact hmark _ (.inl rfl)
  · exact hdate c hc
  · exact hmark _ (by decide)
  · exact defaultExtension_suffixChar preferred c hc

theorem length_padded (width n : ℕ) : (padded width n).length = width := by
  induction width generalizing n with
  | zero => rfl
  | succ width ih => rw [padded, List.length_append, ih]; rfl

theorem length_exportSuffix_le (date : LocalDateTime) (preferred : ExportFormat) :
    (exportSuffix date preferred).length ≤ 25 := by
  have hextension : preferred.defaultExtension.length ≤ 4 := by cases preferred <;> decide
  simp only [exportSuffix, LocalDateTime.fileNameComponent, List.length_append, List.length_cons,
    length_padded]
  omega

/-! ### File names -/

/-- A name of one path component, in its whole. -/
structure SingleComponent (name : Text) : Prop where
  no_special : ∀ c ∈ name, isReserved c = false ∧ isControl c = false
  not_dots : name ≠ [] ∧ name ≠ ['.'] ∧ name ≠ ['.', '.']

theorem sanitizePathSegment_no_special {value segment : Text}
    (h : sanitizePathSegment value = some segment) :
    ∀ c ∈ segment, isReserved c = false ∧ isControl c = false := by
  have hvoid : ¬ IsVoid value := by
    intro hvoid
    rw [sanitizePathSegment_void hvoid] at h
    cases h
  rw [sanitizePathSegment_of_not_void hvoid] at h
  obtain rfl := Option.some.inj h
  exact (settled_replaceTrailingDots (cleanName_core hvoid)).markDevice.no_special

theorem session_no_special :
    ∀ c ∈ "session".toList, isReserved c = false ∧ isControl c = false := by
  have hall : "session".toList.all (fun c => !isReserved c && !isControl c) = true := by
    decide
  intro c hc
  simpa using List.all_eq_true.mp hall c hc

theorem truncateUnicodeComponent_within (value : Text) {maxUtf8Bytes maxUtf16Units : ℕ}
    (hbytes : maxUtf8Bytes ≤ 255) (hunits : maxUtf16Units ≤ 255) :
    utf8Len (truncateUnicodeComponent value maxUtf8Bytes maxUtf16Units) ≤ maxUtf8Bytes ∧
      utf16Len (truncateUnicodeComponent value maxUtf8Bytes maxUtf16Units) ≤ maxUtf16Units := by
  have hlimit : 255 < usizeLimit - 1 := by decide
  have h := truncateFrom_within (hbytes.trans_lt hlimit) (hunits.trans_lt hlimit) value
    ⟨Nat.zero_le _, Nat.zero_le _⟩
  rwa [Nat.zero_add, Nat.zero_add] at h

/-- A segment leaves room for the suffix, with one place for the mark of a device. -/
theorem boundedPathSegmentForSuffix_spec (value fallback : Text) {affix : Text}
    (hascii : ∀ c ∈ affix, c.toNat < 128) (hlength : affix.length ≤ 25) :
    (∀ c ∈ boundedPathSegmentForSuffix value fallback affix,
        isReserved c = false ∧ isControl c = false) ∧
      utf8Len (boundedPathSegmentForSuffix value fallback affix) + affix.length ≤ 255 ∧
      utf16Len (boundedPathSegmentForSuffix value fallback affix) + affix.length ≤ 255 := by
  have h8 : utf8Len affix = affix.length := weight_of_ascii isEncoding_utf8 hascii
  have h16 : utf16Len affix = affix.length := weight_of_ascii isEncoding_utf16 hascii
  unfold boundedPathSegmentForSuffix
  simp only [maxPortableFileNameUtf8Bytes, maxPortableFileNameUtf16Units, h8, h16]
  have hroom : 255 - affix.length - 1 ≤ 255 := by omega
  have hwithin := fun text : Text => truncateUnicodeComponent_within text hroom hroom
  cases hsegment : sanitizePathSegment (truncateUnicodeComponent (safePathSegment value fallback)
      (255 - affix.length - 1) (255 - affix.length - 1)) with
  | none =>
      rw [Option.getD_none]
      have := hwithin "session".toList
      refine ⟨fun c hc => ?_, by omega, by omega⟩
      exact session_no_special c ((truncateFrom_isPrefix _ _ _ _ _).subset hc)
  | some segment =>
      rw [Option.getD_some]
      have := hwithin (safePathSegment value fallback)
      have h8' : utf8Len segment ≤ _ := weight_sanitizePathSegment_le isEncoding_utf8 hsegment
      have h16' : utf16Len segment ≤ _ := weight_sanitizePathSegment_le isEncoding_utf16 hsegment
      change utf8Len segment ≤ utf8Len _ + 1 at h8'
      change utf16Len segment ≤ utf16Len _ + 1 at h16'
      exact ⟨sanitizePathSegment_no_special hsegment, by omega, by omega⟩

/-- The default name is one component within the limits, with the extension of its format. -/
theorem defaultExportFileName_component (hostLabel hostname : Text) (date : LocalDateTime)
    (preferred : ExportFormat) :
    SingleComponent (defaultExportFileName hostLabel hostname date preferred) ∧
      utf8Len (defaultExportFileName hostLabel hostname date preferred) ≤ 255 ∧
      utf16Len (defaultExportFileName hostLabel hostname date preferred) ≤ 255 ∧
      '.' :: preferred.defaultExtension <:+
        defaultExportFileName hostLabel hostname date preferred := by
  unfold defaultExportFileName
  simp only
  generalize (if hostLabel.isEmpty then hostname else hostLabel) = source
  have hchars := exportSuffix_suffixChar date preferred
  obtain ⟨hspecial, h8, h16⟩ := boundedPathSegmentForSuffix_spec source "session".toList
    (fun c hc => (hchars c hc).1) (length_exportSuffix_le date preferred)
  generalize boundedPathSegmentForSuffix source "session".toList (exportSuffix date preferred) =
    segment at hspecial h8 h16
  have hlen8 : utf8Len (segment ++ exportSuffix date preferred) =
      utf8Len segment + (exportSuffix date preferred).length := by
    rw [← weight_of_ascii isEncoding_utf8 fun c hc => (hchars c hc).1]
    exact weight_append _ _
  have hlen16 : utf16Len (segment ++ exportSuffix date preferred) =
      utf16Len segment + (exportSuffix date preferred).length := by
    rw [← weight_of_ascii isEncoding_utf16 fun c hc => (hchars c hc).1]
    exact weight_append _ _
  have hmark : '_' ∈ segment ++ exportSuffix date preferred :=
    List.mem_append_right _ List.mem_cons_self
  refine ⟨⟨fun c hc => ?_, ?_, ?_, ?_⟩, by omega, by omega, ?_⟩
  · rcases List.mem_append.mp hc with hc | hc
    · exact hspecial c hc
    · exact (hchars c hc).2
  all_goals first | (intro heq; rw [heq] at hmark; exact absurd hmark (by decide)) | skip
  exact ⟨segment ++ '_' :: date.fileNameComponent, by simp [exportSuffix]⟩

/-! ### Every export name -/

/-- **Segments are portable unless they name a device with an extension; default names fit.** -/
theorem exportNames_portable (value fallback : Text) :
    (SafeSegment (safePathSegment value fallback) ↔
      ¬ NamesDevice value ∧ (IsVoid value → ¬ NamesDevice fallback)) ∧
    ∀ hostLabel hostname date preferred,
      SingleComponent (defaultExportFileName hostLabel hostname date preferred) ∧
        utf8Len (defaultExportFileName hostLabel hostname date preferred) ≤ 255 ∧
        '.' :: preferred.defaultExtension <:+
          defaultExportFileName hostLabel hostname date preferred := by
  refine ⟨safeSegment_iff value fallback, fun hostLabel hostname date preferred => ?_⟩
  obtain ⟨hsingle, h8, -, hextension⟩ :=
    defaultExportFileName_component hostLabel hostname date preferred
  exact ⟨hsingle, h8, hextension⟩

/-- A device with an extension stays one. -/
theorem not_exportNames_portable :
    ¬ ((∀ value fallback, SafeSegment (safePathSegment value fallback)) ∧
      ∀ hostLabel hostname date preferred,
        SingleComponent (defaultExportFileName hostLabel hostname date preferred) ∧
          utf8Len (defaultExportFileName hostLabel hostname date preferred) ≤ 255 ∧
          '.' :: preferred.defaultExtension <:+
            defaultExportFileName hostLabel hostname date preferred) := by
  rintro ⟨h, -⟩
  have hdevice := (h "con.txt".toList "fallback".toList).1.not_device
  exact absurd hdevice (by decide)

end Netcatty.LogExport
