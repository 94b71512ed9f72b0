import Mathlib.Data.List.Basic
import Netcatty.Vault.Model

/-! # Names of vault files

A snapshot file carries its generation, in twenty digits, and a random artifact id in its name; a
file that is still being written has a name of another form.  A snapshot's name is parsed to its
generation (`parse_snapshotName`), and no name has both forms (`parse_eq_none_of_temp`). -/

namespace Netcatty.Vault

/-! ### Parsing -/

def stripPrefix (affix : String) (s : Text) : Option Text := affix.toList.isPrefixOf? s

def stripSuffix (affix : String) (s : Text) : Option Text := affix.toList.isSuffixOf? s

def splitOnce (separator : Char) (s : Text) : Option (Text × Text) :=
  match s.dropWhile (· ≠ separator) with
  | [] => none
  | _ :: rest => some (s.takeWhile (· ≠ separator), rest)

def decimalValue (digits : Text) : ℕ := digits.foldl (fun n c => 10 * n + (c.toNat - 48)) 0

/-- `str::parse::<u64>`, which takes a plus sign. -/
def parseU64 (s : Text) : Option ℕ :=
  let digits := (stripPrefix "+" s).getD s
  if digits.isEmpty || !digits.all Char.isDigit then none
  else if decimalValue digits < 2 ^ 64 then some (decimalValue digits) else none

/-- Thirty-two hexadecimal digits, as a simple UUID is written. -/
def isArtifactId (s : Text) : Bool := utf8Len s = 32 && s.all isLowerHex

def ArtifactId : Type := { s : Text // isArtifactId s }
  deriving DecidableEq

def parseSnapshotName (name : Text) : Option ℕ := do
  let body ← stripPrefix "snapshot-" name
  let body ← stripSuffix ".json" body
  let (generation, artifactId) ← splitOnce '-' body
  if utf8Len generation ≠ 20 || !isArtifactId artifactId then none
  else
    let generation ← parseU64 generation
    if 0 < generation then some generation else none

def isSnapshotTempName (name : Text) : Bool :=
  ((stripPrefix ".snapshot-" name).bind (stripSuffix ".tmp")).any isArtifactId

/-! ### Writing -/

/-- The last digits of a number, as many as the width. -/
def padded : ℕ → ℕ → Text
  | 0, _ => []
  | width + 1, n => padded width (n / 10) ++ [Char.ofNat (48 + n % 10)]

/-- A generation has at most twenty digits. -/
def snapshotName (generation : ℕ) (id : ArtifactId) : Text :=
  "snapshot-".toList ++ (padded 20 generation ++ '-' :: id.val) ++ ".json".toList

def snapshotTempName (id : ArtifactId) : Text :=
  ".snapshot-".toList ++ id.val ++ ".tmp".toList

theorem utf8Len_append (text more : Text) : utf8Len (text ++ more) = utf8Len text + utf8Len more := by
  simp [utf8Len]

theorem utf8Len_cons (c : Char) (text : Text) : utf8Len (c :: text) = c.utf8Size + utf8Len text := by
  simp [utf8Len]

/-- A digit takes one byte. -/
theorem utf8Len_of_isDigit {text : Text} (h : ∀ c ∈ text, c.isDigit = true) :
    utf8Len text = text.length := by
  induction text with
  | nil => rfl
  | cons c text ih =>
      have hc := h c List.mem_cons_self
      have hle : c.val ≤ 127 := by
        simp only [Char.isDigit, Bool.and_eq_true, decide_eq_true_eq] at hc
        exact UInt32.le_trans hc.2 (by decide)
      have hsize : c.utf8Size = 1 := by simp [Char.utf8Size, hle]
      rw [utf8Len_cons, hsize, ih fun d hd => h d (List.mem_cons_of_mem _ hd), List.length_cons]
      omega

/-! ### What is written is parsed -/

theorem stripPrefix_append (affix : String) (s : Text) :
    stripPrefix affix (affix.toList ++ s) = some s :=
  List.isPrefixOf?_eq_some_iff_append_eq.mpr rfl

theorem stripSuffix_append (affix : String) (s : Text) :
    stripSuffix affix (s ++ affix.toList) = some s :=
  List.isSuffixOf?_eq_some_iff_append_eq.mpr rfl

theorem splitOnce_append {separator : Char} {s : Text} (h : separator ∉ s) (rest : Text) :
    splitOnce separator (s ++ separator :: rest) = some (s, rest) := by
  have hall : ∀ c ∈ s, decide (c ≠ separator) = true := by
    intro c hc
    simpa using fun heq : c = separator => h (heq ▸ hc)
  unfold splitOnce
  rw [List.dropWhile_append_of_pos hall, List.takeWhile_append_of_pos hall]
  simp

theorem digit_isDigit (n : ℕ) : (Char.ofNat (48 + n % 10)).isDigit ∧
    (Char.ofNat (48 + n % 10)).toNat - 48 = n % 10 ∧
    (Char.ofNat (48 + n % 10)).utf8Size = 1 := by
  have h : n % 10 < 10 := Nat.mod_lt _ (by decide)
  generalize n % 10 = digit at h
  decide +revert

theorem padded_isDigit (width n : ℕ) : ∀ c ∈ padded width n, c.isDigit := by
  induction width generalizing n with
  | zero => exact fun c hc => absurd hc List.not_mem_nil
  | succ width ih =>
      intro c hc
      rcases List.mem_append.mp hc with hc | hc
      · exact ih _ c hc
      · rw [List.mem_singleton.mp hc]
        exact (digit_isDigit n).1

theorem utf8Len_padded (width n : ℕ) : utf8Len (padded width n) = width := by
  induction width generalizing n with
  | zero => rfl
  | succ width ih =>
      have hrest := ih (n / 10)
      simp only [utf8Len, padded, List.map_append, List.map_singleton, List.sum_append,
        List.sum_singleton, (digit_isDigit n).2.2] at hrest ⊢
      rw [hrest]

theorem decimalValue_padded (width n : ℕ) : decimalValue (padded width n) = n % 10 ^ width := by
  induction width generalizing n with
  | zero => simp [padded, decimalValue, Nat.mod_one]
  | succ width ih =>
      have hrest := ih (n / 10)
      simp only [decimalValue, padded, List.foldl_append, List.foldl_cons, List.foldl_nil,
        (digit_isDigit n).2.1] at hrest ⊢
      rw [hrest, Nat.pow_succ', Nat.mod_mul]
      omega

theorem parseU64_padded (width : ℕ) {n : ℕ} (hwidth : 0 < width) (hn : n < 10 ^ width)
    (hmax : n < 2 ^ 64) : parseU64 (padded width n) = some n := by
  have hdigits := padded_isDigit width n
  have hvalue : decimalValue (padded width n) = n := by
    rw [decimalValue_padded, Nat.mod_eq_of_lt hn]
  have hplus : stripPrefix "+" (padded width n) = none := by
    cases h : stripPrefix "+" (padded width n) with
    | none => rfl
    | some rest =>
        have heq := List.isPrefixOf?_eq_some_iff_append_eq.mp h
        exact absurd (hdigits '+' (by rw [← heq]; exact List.mem_cons_self)) (by decide)
  have hne : (padded width n).isEmpty = false := by
    cases width with
    | zero => exact absurd hwidth (lt_irrefl 0)
    | succ width => simp [padded]
  simp only [parseU64, hplus, Option.getD_none, hne, hvalue, hmax, if_true]
  simp [List.all_eq_true.mpr hdigits]

theorem parse_snapshotName {generation : ℕ} (hpos : 0 < generation) (hmax : generation < 2 ^ 64)
    (id : ArtifactId) : parseSnapshotName (snapshotName generation id) = some generation := by
  have hnodash : '-' ∉ padded 20 generation := fun hmem =>
    absurd (padded_isDigit _ _ _ hmem) (by decide)
  have hparse := parseU64_padded 20 (by decide) (hmax.trans (by decide)) hmax
  unfold parseSnapshotName snapshotName
  rw [List.append_assoc, stripPrefix_append, Option.bind_eq_bind, Option.bind_some,
    stripSuffix_append, Option.bind_eq_bind, Option.bind_some, splitOnce_append hnodash]
  simp [utf8Len_padded, id.property, hparse, hpos]

theorem isSnapshotTempName_temp (id : ArtifactId) :
    isSnapshotTempName (snapshotTempName id) = true := by
  unfold isSnapshotTempName snapshotTempName
  rw [List.append_assoc, stripPrefix_append, Option.bind_some, stripSuffix_append]
  exact id.property

theorem stripPrefix_eq_none_of_head {affix other : String} {s rest : Text}
    (h : stripPrefix affix s = some rest) (hne : other.toList.head? ≠ affix.toList.head?)
    (hother : other.toList ≠ []) (haffix : affix.toList ≠ []) : stripPrefix other s = none := by
  cases hstrip : stripPrefix other s with
  | none => rfl
  | some rest' =>
      have h₁ := List.isPrefixOf?_eq_some_iff_append_eq.mp h
      have h₂ := List.isPrefixOf?_eq_some_iff_append_eq.mp hstrip
      refine absurd ?_ hne
      rw [← List.head?_append_of_ne_nil _ hother, ← List.head?_append_of_ne_nil _ haffix, h₁, h₂]

/-- The name of a file that is being written is not that of a snapshot. -/
theorem parse_eq_none_of_temp {name : Text} (h : isSnapshotTempName name = true) :
    parseSnapshotName name = none := by
  unfold isSnapshotTempName at h
  cases hstrip : stripPrefix ".snapshot-" name with
  | none => simp [hstrip] at h
  | some rest =>
      unfold parseSnapshotName
      rw [stripPrefix_eq_none_of_head hstrip (by decide) (by decide)
        (by decide)]
      rfl

theorem parseU64_lt {s : Text} {n : ℕ} (h : parseU64 s = some n) : n < 2 ^ 64 := by
  simp only [parseU64] at h
  split at h
  · exact absurd h (by simp)
  split at h
  · rename_i hlt
    cases h
    exact hlt
  · exact absurd h (by simp)

theorem parseSnapshotName_bounds {name : Text} {generation : ℕ}
    (h : parseSnapshotName name = some generation) : 0 < generation ∧ generation < 2 ^ 64 := by
  unfold parseSnapshotName at h
  obtain ⟨_, _, h⟩ := Option.bind_eq_some_iff.mp h
  obtain ⟨_, _, h⟩ := Option.bind_eq_some_iff.mp h
  obtain ⟨⟨digits, _⟩, _, h⟩ := Option.bind_eq_some_iff.mp h
  dsimp only at h
  split at h
  · exact absurd h (by simp)
  obtain ⟨value, hvalue, h⟩ := Option.bind_eq_some_iff.mp h
  split at h
  · rename_i hpos
    cases h
    exact ⟨hpos, parseU64_lt hvalue⟩
  · exact absurd h (by simp)

end Netcatty.Vault
