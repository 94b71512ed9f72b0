import Netcatty.Library.Boundary
import Netcatty.Library.Runs
import Netcatty.Serial.Publish

/-! # The destination names of a received file

A received file is published under its own name or, where that is taken, under names with a counter
before the extension.  Each of these is a valid name (`candidate_valid`), and all differ but for a
name that is too long for a counter and already has it (`candidate_eq_iff`).  The job gives up only
when it has found every one of them taken (`run_searching`). -/

namespace Netcatty.Serial

open Boundary
open Zmodem (maxFilenameBytes sanitizeZmodemFilename sanitizeZmodemFilename_ok
  sanitizeZmodemFilename_clean)

/-! ### Sizes -/

/-- The bytes of a name, in UTF-8. -/
def bytesOf (name : List Char) : ℕ := width Char.utf8Size name

@[simp] theorem bytesOf_nil : bytesOf [] = 0 := rfl

@[simp] theorem bytesOf_cons (c : Char) (name : List Char) :
    bytesOf (c :: name) = c.utf8Size + bytesOf name := rfl

@[simp] theorem bytesOf_append (name more : List Char) :
    bytesOf (name ++ more) = bytesOf name + bytesOf more := width_append _ _ _

theorem length_encodeUtf8 (name : List Char) : (encodeUtf8 name).length = bytesOf name := by
  induction name with
  | nil => rfl
  | cons c rest ih =>
      rw [encodeUtf8, List.flatMap_cons, List.length_append, String.length_utf8EncodeChar,
        bytesOf_cons, ← ih, encodeUtf8]

theorem bytesOf_ascii {name : List Char} (h : ∀ c ∈ name, c.toNat < 128) :
    bytesOf name = name.length := by
  induction name with
  | nil => rfl
  | cons c rest ih =>
      have hc : c.utf8Size = 1 := by
        have hlt : c.val.toNat < 128 := h c List.mem_cons_self
        exact Char.utf8Size_eq_one_iff.mpr (UInt32.le_iff_toNat_le.mpr (by
          show c.val.toNat ≤ 127
          omega))
      rw [bytesOf_cons, hc, List.length_cons, Nat.add_comm,
        ih fun c hc => h c (List.mem_cons_of_mem _ hc)]

section Truncate

variable (value : List Char) (maximumBytes : ℕ)

theorem truncateUtf8_start : truncateUtf8 value maximumBytes <+: value := by
  induction value generalizing maximumBytes with
  | nil => exact List.prefix_rfl
  | cons c rest ih =>
      rw [truncateUtf8]
      split_ifs
      · exact List.cons_prefix_cons.mpr ⟨rfl, ih _⟩
      · exact List.nil_prefix

theorem bytesOf_truncateUtf8_le : bytesOf (truncateUtf8 value maximumBytes) ≤ maximumBytes := by
  induction value generalizing maximumBytes with
  | nil => exact Nat.zero_le _
  | cons c rest ih =>
      rw [truncateUtf8]
      split_ifs with hc
      · have hrest := ih (maximumBytes - c.utf8Size)
        rw [bytesOf_cons]
        omega
      · exact Nat.zero_le _

variable {value maximumBytes}

/-- A beginning that fits is kept. -/
theorem truncateUtf8_append (h : bytesOf value ≤ maximumBytes) (rest : List Char) :
    truncateUtf8 (value ++ rest) maximumBytes =
      value ++ truncateUtf8 rest (maximumBytes - bytesOf value) := by
  induction value generalizing maximumBytes with
  | nil => rfl
  | cons d value ih =>
      rw [bytesOf_cons] at h
      rw [List.cons_append, truncateUtf8, if_pos (by omega), ih (by omega), bytesOf_cons,
        Nat.sub_sub, List.cons_append]

end Truncate

/-! ### Valid names -/

theorem validateReceiveName_ok_iff {name : List Char} :
    validateReceiveName name = .ok () ↔ CleanName name ∧ bytesOf name ≤ maxFilenameBytes := by
  unfold validateReceiveName
  rw [length_encodeUtf8]
  constructor
  · intro h
    split_ifs at h with hlen
    cases hsanitized : sanitizeZmodemFilename name with
    | error error =>
        rw [hsanitized] at h
        cases h
    | ok sanitized =>
        rw [hsanitized] at h
        simp only at h
        split_ifs at h with hne
        obtain rfl := not_not.mp hne
        exact ⟨(sanitizeZmodemFilename_ok hsanitized).1, by omega⟩
  · rintro ⟨hclean, hlen⟩
    rw [if_neg, sanitizeZmodemFilename_clean hclean (by rwa [length_encodeUtf8])]
    · exact if_neg (fun hne => hne rfl)
    · rintro (hnil | hlt)
      · exact hclean.not_dots.1 hnil
      · omega

/-- What makes a name clean, at its two ends and between them. -/
theorem cleanName_of {name : List Char}
    (hchars : ∀ c ∈ name, isControl c = false ∧ isReserved c = false)
    (hhead : ∀ c ∈ name.head?, isWhitespace c = false)
    (hlast : ∀ c ∈ name.getLast?, isWhitespace c = false)
    (hdots : ∃ c ∈ name, c ≠ '.') : CleanName name := by
  refine ⟨hchars, ?_, ?_, ?_⟩
  · cases name with
    | nil => rfl
    | cons c rest =>
        refine List.dropWhile_cons_of_neg ?_
        rw [hhead c rfl]
        exact Bool.false_ne_true
  · rw [List.rdropWhile_eq_self_iff]
    intro hne
    rw [hlast _ (List.getLast?_eq_some_getLast hne)]
    exact Bool.false_ne_true
  · obtain ⟨c, hc, hdot⟩ := hdots
    refine ⟨List.ne_nil_of_mem hc, ?_, ?_⟩
    · rintro rfl
      exact hdot (List.mem_singleton.mp hc)
    · rintro rfl
      rcases List.mem_cons.mp hc with rfl | hc
      · exact hdot rfl
      · exact hdot (List.mem_singleton.mp hc)

theorem CleanName.head {name : List Char} (h : CleanName name) :
    ∀ c ∈ name.head?, isWhitespace c = false := by
  intro c hc
  cases name with
  | nil => cases hc
  | cons d rest =>
      obtain rfl := Option.some.inj hc
      by_contra hspace
      have hdrop := h.no_leading
      rw [List.dropWhile_cons_of_pos (Bool.not_eq_false _ ▸ hspace)] at hdrop
      have hlen := (List.dropWhile_suffix isWhitespace (l := rest)).length_le
      rw [hdrop, List.length_cons] at hlen
      omega

theorem CleanName.last {name : List Char} (h : CleanName name) :
    ∀ c ∈ name.getLast?, isWhitespace c = false := by
  intro c hc
  have hne : name ≠ [] := h.not_dots.1
  have hlast := List.rdropWhile_eq_self_iff.mp h.no_trailing hne
  rw [List.getLast?_eq_some_getLast hne] at hc
  obtain rfl := Option.some.inj hc
  exact Bool.eq_false_iff.mpr hlast

/-! ### The parts of a candidate -/

/-- The counter of an attempt, as it stands before the extension. -/
def counter (attempt : ℕ) : List Char := " (".toList ++ Nat.toDigits 10 attempt ++ [')']

theorem counter_eq (attempt : ℕ) :
    counter attempt = ' ' :: '(' :: Nat.toDigits 10 attempt ++ [')'] := by
  rw [counter, String.toList_ofList]
  rfl

/-- The extension of a name, where it leaves room for the counter of an attempt. -/
def keptExtension (fileName : List Char) (attempt : ℕ) : Option (List Char) :=
  (splitExtension fileName).2.filter fun value =>
    bytesOf value + (counter attempt).length + 2 < maxFilenameBytes

/-- The extension with its dot. -/
def dotted (extension : Option (List Char)) : List Char := (extension.map ('.' :: ·)).getD []

def stemBudget (fileName : List Char) (attempt : ℕ) : ℕ :=
  maxFilenameBytes - ((counter attempt).length + bytesOf (dotted (keptExtension fileName attempt)))

def base (fileName : List Char) (attempt : ℕ) : List Char :=
  let truncated := truncateUtf8 (splitExtension fileName).1 (stemBudget fileName attempt)
  if truncated = [] then truncateUtf8 "zmodem".toList (stemBudget fileName attempt) else truncated

/-- The destination name of an attempt, which is the file's own name at first. -/
def candidate (fileName : List Char) (attempt : ℕ) : List Char :=
  if attempt = 0 then fileName
  else base fileName attempt ++ counter attempt ++ dotted (keptExtension fileName attempt)

variable {fileName : List Char} {attempt : ℕ}

section Parts

theorem bytesOf_dotted (extension : Option (List Char)) :
    bytesOf (dotted extension) = (extension.map fun value => bytesOf value + 1).getD 0 := by
  cases extension with
  | none => rfl
  | some value => exact Nat.add_comm _ _

theorem digit_chars {c : Char} (h : c.isDigit = true) :
    c.toNat < 128 ∧ isControl c = false ∧ isReserved c = false := by
  obtain ⟨hlow, hhigh⟩ := Char.isDigit_iff_toNat.mp h
  have hlow : 48 ≤ c.toNat := hlow
  have hhigh : c.toNat ≤ 57 := hhigh
  refine ⟨by omega, ?_, ?_⟩
  · rw [isControl, Bool.or_eq_false_iff, Bool.and_eq_false_iff, decide_eq_false_iff_not,
      decide_eq_false_iff_not]
    exact ⟨by omega, .inl (by omega)⟩
  · rw [isReserved, Bool.eq_false_iff, Ne, List.contains_iff_mem]
    intro hmem
    simp only [List.mem_cons, List.not_mem_nil, or_false] at hmem
    rcases hmem with rfl | rfl | rfl | rfl | rfl | rfl | rfl | rfl | rfl <;> cases h

theorem counter_chars (attempt : ℕ) : ∀ c ∈ counter attempt,
    c.toNat < 128 ∧ isControl c = false ∧ isReserved c = false := by
  intro c hc
  rw [counter_eq, List.mem_append, List.mem_cons, List.mem_cons, List.mem_singleton] at hc
  rcases hc with (rfl | rfl | hdigit) | rfl
  · decide
  · decide
  · exact digit_chars (Nat.isDigit_of_mem_toDigits (by decide) (by decide) hdigit)
  · decide

theorem bytesOf_counter (attempt : ℕ) : bytesOf (counter attempt) = (counter attempt).length :=
  bytesOf_ascii fun c hc => (counter_chars attempt c hc).1

theorem length_counter_le (h : attempt < maxUniqueDestinationAttempts) :
    (counter attempt).length ≤ 7 := by
  have hdigits := (Nat.length_toDigits_le_iff (b := 10) (n := attempt) (k := 4) (by decide)
    (by decide)).mpr h
  rw [counter_eq]
  simp only [List.length_append, List.length_cons, List.length_nil]
  omega

/-- A name is its stem and its extension. -/
theorem split_append (fileName : List Char) :
    (splitExtension fileName).1 ++ dotted (splitExtension fileName).2 = fileName := by
  unfold splitExtension
  simp only
  split_ifs with hstem
  · exact List.append_nil _
  · have hne : fileName.rdropWhile (· ≠ '.') ≠ [] := by
      intro hnil
      rw [hnil] at hstem
      exact hstem rfl
    have hdot : (fileName.rdropWhile (· ≠ '.')).getLast hne = '.' := by
      have := List.rdropWhile_last_not (fun c => decide (c ≠ '.')) fileName hne
      simpa using this
    have hback := List.dropLast_append_getLast hne
    rw [hdot] at hback
    calc (fileName.rdropWhile (· ≠ '.')).dropLast ++ '.' :: fileName.rtakeWhile (· ≠ '.')
        = (fileName.rdropWhile (· ≠ '.')).dropLast ++ ['.'] ++ fileName.rtakeWhile (· ≠ '.') := by
          rw [List.append_assoc, List.singleton_append]
      _ = fileName.rdropWhile (· ≠ '.') ++ fileName.rtakeWhile (· ≠ '.') := by rw [hback]
      _ = fileName := List.rdropWhile_append_rtakeWhile

theorem bytesOf_split (fileName : List Char) :
    bytesOf (splitExtension fileName).1 + bytesOf (dotted (splitExtension fileName).2) =
      bytesOf fileName := by
  rw [← bytesOf_append, split_append]

/-- The extension is kept, or it leaves no room. -/
theorem keptExtension_cases (fileName : List Char) (attempt : ℕ) :
    (keptExtension fileName attempt = (splitExtension fileName).2 ∧
      ∀ value, keptExtension fileName attempt = some value →
        bytesOf value + (counter attempt).length + 2 < maxFilenameBytes) ∨
    keptExtension fileName attempt = none ∧ ∃ value, (splitExtension fileName).2 = some value ∧
      maxFilenameBytes ≤ bytesOf value + (counter attempt).length + 2 := by
  unfold keptExtension
  cases (splitExtension fileName).2 with
  | none => exact .inl ⟨rfl, fun value h => nomatch h⟩
  | some value =>
      by_cases hroom : bytesOf value + (counter attempt).length + 2 < maxFilenameBytes
      · rw [Option.filter_some, if_pos (decide_eq_true hroom)]
        refine .inl ⟨rfl, fun value' h => ?_⟩
        obtain rfl := Option.some.inj h
        exact hroom
      · rw [Option.filter_some, if_neg (by simpa using hroom)]
        exact .inr ⟨rfl, value, rfl, by omega⟩

/-- The counter and the extension leave two bytes at least. -/
theorem stemBudget_spec (fileName : List Char) (h : attempt < maxUniqueDestinationAttempts) :
    2 ≤ stemBudget fileName attempt ∧
      stemBudget fileName attempt + (counter attempt).length +
        bytesOf (dotted (keptExtension fileName attempt)) = maxFilenameBytes := by
  have hcounter := length_counter_le h
  have hdotted : (counter attempt).length + bytesOf (dotted (keptExtension fileName attempt)) + 2 ≤
      maxFilenameBytes := by
    rw [bytesOf_dotted]
    rcases keptExtension_cases fileName attempt with ⟨-, hroom⟩ | ⟨hnone, -⟩
    · cases hkept : keptExtension fileName attempt with
      | none =>
          show (counter attempt).length + 0 + 2 ≤ 255
          omega
      | some value =>
          have := hroom value hkept
          show (counter attempt).length + (bytesOf value + 1) + 2 ≤ _
          omega
    · rw [hnone]
      show (counter attempt).length + 0 + 2 ≤ 255
      omega
  unfold stemBudget
  omega

theorem zmodem_eq : "zmodem".toList = ['z', 'm', 'o', 'd', 'e', 'm'] := by
  rw [String.toList_ofList]

/-- The base is a beginning of the stem, or of the name that stands in for it. -/
theorem base_cases (fileName : List Char) (h : attempt < maxUniqueDestinationAttempts) :
    base fileName attempt ≠ [] ∧ bytesOf (base fileName attempt) ≤ stemBudget fileName attempt ∧
      (base fileName attempt <+: (splitExtension fileName).1 ∨
        base fileName attempt <+: ['z', 'm', 'o', 'd', 'e', 'm']) := by
  have hbudget := (stemBudget_spec fileName h).1
  unfold base
  simp only
  split_ifs with htruncated
  · rw [zmodem_eq]
    refine ⟨?_, bytesOf_truncateUtf8_le _ _, .inr (truncateUtf8_start _ _)⟩
    rw [truncateUtf8, if_pos (show 'z'.utf8Size ≤ _ by
      show 1 ≤ _
      omega)]
    exact List.cons_ne_nil _ _
  · exact ⟨htruncated, bytesOf_truncateUtf8_le _ _, .inl (truncateUtf8_start _ _)⟩

/-- A candidate is a clean name within the limit. -/
theorem candidate_valid (hclean : CleanName fileName) (hbytes : bytesOf fileName ≤ maxFilenameBytes)
    (h : attempt < maxUniqueDestinationAttempts) :
    CleanName (candidate fileName attempt) ∧
      bytesOf (candidate fileName attempt) ≤ maxFilenameBytes := by
  unfold candidate
  split_ifs
  · exact ⟨hclean, hbytes⟩
  obtain ⟨hne, hfits, hbase⟩ := base_cases fileName h
  have hbudget := (stemBudget_spec fileName h).2
  generalize base fileName attempt = front at hne hfits hbase
  have hstem : ∀ c ∈ (splitExtension fileName).1, c ∈ fileName := fun c hc => by
    rw [← split_append fileName]
    exact List.mem_append_left _ hc
  -- the extension ends the name that it comes from
  have hext : dotted (keptExtension fileName attempt) <:+ fileName := by
    rcases keptExtension_cases fileName attempt with ⟨hkept, -⟩ | ⟨hnone, -⟩
    · rw [hkept]
      conv_rhs => rw [← split_append fileName]
      exact List.suffix_append _ _
    · rw [hnone]
      exact List.nil_suffix
  generalize dotted (keptExtension fileName attempt) = ending at hbudget hext
  refine ⟨cleanName_of (fun c hc => ?_) (fun c hc => ?_) (fun c hc => ?_) ⟨')', ?_, by decide⟩, ?_⟩
  · rcases List.mem_append.mp hc with hc | hc
    · rcases List.mem_append.mp hc with hc | hc
      · rcases hbase with hstart | hstart
        · exact hclean.no_special c (hstem c (hstart.subset hc))
        · exact (List.forall_iff_forall_mem.mp (by decide) :
            ∀ c ∈ ['z', 'm', 'o', 'd', 'e', 'm'], isControl c = false ∧ isReserved c = false) c
              (hstart.subset hc)
      · exact (counter_chars attempt c hc).2
    · exact hclean.no_special c (hext.subset hc)
  · cases front with
    | nil => exact absurd rfl hne
    | cons d front =>
        obtain rfl := Option.some.inj hc
        rcases hbase with hstart | hstart
        · refine hclean.head d ?_
          rw [← split_append fileName]
          obtain ⟨rest, hrest⟩ := hstart
          rw [← hrest]
          rfl
        · obtain ⟨rfl, -⟩ := List.cons_prefix_cons.mp hstart
          decide
  · cases hending : ending.getLast? with
    | none =>
        rw [List.getLast?_eq_none_iff.mp hending, List.append_nil, counter_eq, ← List.append_assoc,
          List.getLast?_concat] at hc
        obtain rfl := Option.some.inj hc
        decide
    | some d =>
        rw [List.getLast?_append, hending] at hc
        obtain rfl := Option.some.inj hc
        refine hclean.last d ?_
        obtain ⟨start, rfl⟩ := hext
        rw [List.getLast?_append, hending]
        rfl
  · rw [counter_eq]
    simp
  · rw [bytesOf_append, bytesOf_append, bytesOf_counter]
    omega

/-- What `uniqueDestinationName` computes for a valid name. -/
theorem uniqueDestinationName_eq (hvalid : validateReceiveName fileName = .ok ())
    (h : attempt < maxUniqueDestinationAttempts) :
    uniqueDestinationName fileName attempt = .ok (candidate fileName attempt) := by
  obtain ⟨hclean, hbytes⟩ := validateReceiveName_ok_iff.mp hvalid
  have hcandidate := validateReceiveName_ok_iff.mpr (candidate_valid hclean hbytes h)
  unfold uniqueDestinationName
  rw [hvalid]
  by_cases hzero : attempt = 0
  · rw [candidate, if_pos hzero]
    simp only [if_pos hzero]
    rfl
  · have hroom : ¬ maxFilenameBytes < (counter attempt).length +
        ((keptExtension fileName attempt).map fun value => bytesOf value + 1).getD 0 := by
      have := (stemBudget_spec fileName h).2
      rw [bytesOf_dotted] at this
      omega
    have hbudget : stemBudget fileName attempt = maxFilenameBytes - ((counter attempt).length +
        ((keptExtension fileName attempt).map fun value => bytesOf value + 1).getD 0) := by
      rw [stemBudget, bytesOf_dotted]
    simp only [candidate, if_neg hzero] at hcandidate ⊢
    simp only [length_encodeUtf8]
    refine (if_neg hroom).trans ?_
    rw [base, hbudget] at hcandidate ⊢
    exact congrArg (fun valid => valid >>= fun _ => pure _) hcandidate

end Parts

/-! ### Different attempts -/

section Distinct

theorem bytesOf_le_of_isStart {name more : List Char} (h : name <+: more) :
    bytesOf name ≤ bytesOf more := by
  obtain ⟨rest, rfl⟩ := h
  rw [bytesOf_append]
  exact Nat.le_add_right _ _

theorem bytesOf_le_of_suffix {name more : List Char} (h : name <:+ more) :
    bytesOf name ≤ bytesOf more := by
  obtain ⟨front, rfl⟩ := h
  rw [bytesOf_append]
  exact Nat.le_add_left _ _

/-- The digits of a counter are those before the last character. -/
theorem takeWhile_counter (front : List Char) (attempt : ℕ) :
    ((front ++ counter attempt).reverse.drop 1).takeWhile Char.isDigit =
      (Nat.toDigits 10 attempt).reverse := by
  have hdigits : ∀ c ∈ (Nat.toDigits 10 attempt).reverse, c.isDigit = true := fun c hc =>
    Nat.isDigit_of_mem_toDigits (by decide) (by decide) (List.mem_reverse.mp hc)
  rw [counter_eq]
  simp only [List.reverse_append, List.reverse_cons, List.reverse_nil, List.nil_append,
    List.append_assoc, List.cons_append, List.drop_succ_cons, List.drop_zero]
  rw [List.takeWhile_append_of_pos hdigits, List.takeWhile_cons_of_neg (by decide), List.append_nil]

theorem counter_inj {front front' : List Char} {a b : ℕ}
    (h : front ++ counter a = front' ++ counter b) : a = b := by
  have hdigits : (Nat.toDigits 10 a).reverse = (Nat.toDigits 10 b).reverse := by
    rw [← takeWhile_counter front a, h, takeWhile_counter front' b]
  have hvalue := congrArg (fun digits => Nat.ofDigitChars 10 digits 0)
    (List.reverse_injective hdigits)
  simpa only [Nat.ofDigitChars_ten_toDigits] using hvalue

/-- The extension is in every candidate that keeps it. -/
theorem dotted_suffix (h : attempt = 0 ∨
    keptExtension fileName attempt = (splitExtension fileName).2) :
    dotted (splitExtension fileName).2 <:+ candidate fileName attempt := by
  unfold candidate
  split_ifs with hzero
  · conv_rhs => rw [← split_append fileName]
    exact List.suffix_append _ _
  · rw [h.resolve_left hzero]
    exact List.suffix_append _ _

/-- A candidate without an extension that left no room is a short one, and such an extension is a
long one. -/
theorem dropped_sizes (hbytes : bytesOf fileName ≤ maxFilenameBytes)
    (h : attempt < maxUniqueDestinationAttempts) (hpos : 0 < attempt) {value : List Char}
    (hnone : keptExtension fileName attempt = none)
    (hvalue : (splitExtension fileName).2 = some value)
    (hroom : maxFilenameBytes ≤ bytesOf value + (counter attempt).length + 2) :
    bytesOf (candidate fileName attempt) < bytesOf (dotted (splitExtension fileName).2) := by
  have hcounter := length_counter_le h
  have hsplit := bytesOf_split fileName
  have hdotted : bytesOf (dotted (splitExtension fileName).2) = bytesOf value + 1 := by
    rw [bytesOf_dotted, hvalue]
    rfl
  have hmax : maxFilenameBytes = 255 := rfl
  have hbase : bytesOf (base fileName attempt) ≤ 8 := by
    rcases (base_cases fileName h).2.2 with hstem | hzmodem
    · have := bytesOf_le_of_isStart hstem
      omega
    · exact (bytesOf_le_of_isStart hzmodem).trans (by decide)
  rw [candidate, if_neg hpos.ne', hnone, bytesOf_append, bytesOf_append, bytesOf_counter]
  show _ + _ + 0 < _
  omega

/-- A name that is itself the candidate of an attempt has its counter and no room for another. -/
theorem eq_candidate_iff (hpos : 0 < attempt) (h : attempt < maxUniqueDestinationAttempts)
    (hkept : keptExtension fileName attempt = (splitExtension fileName).2) :
    fileName = candidate fileName attempt ↔
      bytesOf fileName = maxFilenameBytes ∧ counter attempt <:+ (splitExtension fileName).1 := by
  obtain ⟨hroom, hbudget⟩ := stemBudget_spec fileName h
  have hsplit := bytesOf_split fileName
  have hcounter := bytesOf_counter attempt
  have hcut : fileName = candidate fileName attempt ↔
      (splitExtension fileName).1 = base fileName attempt ++ counter attempt := by
    rw [candidate, if_neg hpos.ne', hkept]
    conv_lhs => lhs; rw [← split_append fileName]
    exact List.append_left_inj _
  rw [hcut]
  rw [hkept] at hbudget
  have hspace : ∀ n, truncateUtf8 (counter attempt) n = [] ↔ n = 0 := by
    intro n
    rw [counter_eq, List.cons_append, truncateUtf8]
    have hsize : ' '.utf8Size = 1 := rfl
    rw [hsize]
    split_ifs with hn
    · exact iff_of_false id (by omega)
    · exact iff_of_true rfl (by omega)
  constructor
  · intro hstem
    -- the stem begins with the base, so the base does not stand in for it
    have hbase : base fileName attempt =
        truncateUtf8 (splitExtension fileName).1 (stemBudget fileName attempt) := by
      obtain ⟨hne, hfits, -⟩ := base_cases fileName h
      have hlonger := truncateUtf8_append hfits (counter attempt)
      rw [← hstem] at hlonger
      rw [base, if_neg]
      intro hnil
      rw [hnil] at hlonger
      exact hne (List.append_eq_nil_iff.mp hlonger.symm).1
    obtain ⟨-, hfits, -⟩ := base_cases fileName h
    have hcutHere := truncateUtf8_append hfits (counter attempt)
    rw [← hstem, ← hbase, List.self_eq_append_right, hspace] at hcutHere
    have hbytes := congrArg bytesOf hstem
    rw [bytesOf_append] at hbytes
    exact ⟨by omega, _, hstem.symm⟩
  · rintro ⟨hfull, front, hfront⟩
    have hbytes := congrArg bytesOf hfront
    rw [bytesOf_append] at hbytes
    have hfrontBytes : bytesOf front = stemBudget fileName attempt := by omega
    have htruncated : truncateUtf8 (splitExtension fileName).1 (stemBudget fileName attempt) =
        front := by
      rw [← hfront, truncateUtf8_append hfrontBytes.le, (hspace _).mpr (by omega), List.append_nil]
    have hne : front ≠ [] := by
      rintro rfl
      rw [bytesOf_nil] at hfrontBytes
      omega
    rw [base, htruncated]
    simp only [if_neg hne]
    exact hfront.symm

/-- **Different attempts have different candidates**, but for a name that is as long as a name can
be and has the counter of the other attempt already. -/
theorem candidate_eq_iff (hbytes : bytesOf fileName ≤ maxFilenameBytes) {a b : ℕ} (hab : a < b)
    (hb : b < maxUniqueDestinationAttempts) :
    candidate fileName a = candidate fileName b ↔
      a = 0 ∧ bytesOf fileName = maxFilenameBytes ∧
        keptExtension fileName b = (splitExtension fileName).2 ∧
        counter b <:+ (splitExtension fileName).1 := by
  have ha := hab.trans hb
  have hbpos : 0 < b := by omega
  rcases keptExtension_cases fileName b with ⟨hkept, -⟩ | ⟨hnone, value, hvalue, hroom⟩
  · rcases Nat.eq_zero_or_pos a with rfl | hapos
    · rw [candidate, if_pos rfl, eq_candidate_iff hbpos hb hkept]
      exact ⟨fun ⟨hfull, hcounter⟩ => ⟨rfl, hfull, hkept, hcounter⟩,
        fun ⟨_, hfull, _, hcounter⟩ => ⟨hfull, hcounter⟩⟩
    · refine iff_of_false (fun heq => ?_) fun h => hapos.ne' h.1
      rcases keptExtension_cases fileName a with ⟨hkept', -⟩ | ⟨hnone, value, hvalue, hroom⟩
      · rw [candidate, candidate, if_neg hapos.ne', if_neg hbpos.ne', hkept, hkept'] at heq
        exact hab.ne (counter_inj (List.append_cancel_right heq))
      · have hlt := dropped_sizes hbytes ha hapos hnone hvalue hroom
        rw [heq] at hlt
        exact absurd (bytesOf_le_of_suffix (dotted_suffix (.inr hkept))) hlt.not_ge
  · have hlt := dropped_sizes hbytes hb hbpos hnone hvalue hroom
    refine iff_of_false (fun heq => ?_) fun ⟨_, _, hkept, _⟩ => ?_
    · rcases Nat.eq_zero_or_pos a with hzero | hapos
      · rw [← heq] at hlt
        exact absurd (bytesOf_le_of_suffix (dotted_suffix (.inl hzero))) hlt.not_ge
      · rcases keptExtension_cases fileName a with ⟨hkept', -⟩ | ⟨hnone', -⟩
        · rw [← heq] at hlt
          exact absurd (bytesOf_le_of_suffix (dotted_suffix (.inr hkept'))) hlt.not_ge
        · rw [candidate, candidate, if_neg hapos.ne', if_neg hbpos.ne', hnone, hnone'] at heq
          exact hab.ne (counter_inj (List.append_cancel_right heq))
    · rw [hnone, hvalue] at hkept
      cases hkept

end Distinct

/-! ### The search of the job -/

/-- The attempts behind a place of the job: all of them where it has given up. -/
def PublishPhase.attemptsBehind : PublishPhase → ℕ
  | .attempt number | .hardLink number _ => number
  | .retry number => number + 1
  | .dropPending .destinationExists | .finishCancelled (.error .destinationExists)
  | .dropPublished (.error .destinationExists) | .dropStage (.error .destinationExists)
  | .done (.error .destinationExists) => maxUniqueDestinationAttempts
  | _ => 0

namespace PublishRun

open Runs

/-- A step at which the operating system says that a name exists only where it does. -/
def TruthfulStep (received : ReceivedFile) (s : PublishRun) (action : Action) (t : PublishRun) :
    Prop :=
  Step received s action t ∧ ∀ number name, s.phase = .hardLink number name →
    action = .job .alreadyExists → s.directory name ≠ none

/-- A run has come by a state in which the name of an attempt was taken. -/
def FoundTaken (received : ReceivedFile) (s : PublishRun) (actions : List Action) (number : ℕ) :
    Prop :=
  ∃ name earlier found, uniqueDestinationName received.fileName number = .ok name ∧
    earlier <+: actions ∧ Run (TruthfulStep received) s earlier found ∧ found.directory name ≠ none

def isLinking (phase : PublishPhase) : Bool :=
  match phase with
  | .hardLink _ _ => true
  | _ => false

/-- The search at a state: the names of the attempts behind it were taken. -/
structure Searching (received : ReceivedFile) (found : ℕ → Prop) (s : PublishRun) : Prop where
  behind : ∀ number < s.phase.attemptsBehind, found number
  linking : ∀ number name, s.phase = .hardLink number name →
    uniqueDestinationName received.fileName number = .ok name

variable {received : ReceivedFile} {s t : PublishRun} {found found' : ℕ → Prop}

theorem Searching.of_phase (h : Searching received found s)
    (hle : t.phase.attemptsBehind ≤ s.phase.attemptsBehind)
    (hlinking : isLinking t.phase = false) : Searching received found t :=
  ⟨fun number hnumber => h.behind number (hnumber.trans_le hle), fun number name hphase => by
    rw [hphase] at hlinking
    cases hlinking⟩

theorem Searching.mono (h : Searching received found s)
    (hfound : ∀ number, found number → found' number) : Searching received found' s :=
  ⟨fun number hnumber => hfound number (h.behind number hnumber), h.linking⟩

section Job

variable (h : Searching received found s) {outcome : Outcome}

include h

theorem Searching.jobStep (next : PublishPhase) (hnext : next.attemptsBehind = 0)
    (hlinking : isLinking next = false) (operation : NativeFileOperation) :
    Searching received found (s.jobStep outcome next operation) := by
  unfold PublishRun.jobStep
  split_ifs
  · exact h.of_phase (hnext ▸ Nat.zero_le _) hlinking
  · exact h.of_phase (Nat.zero_le _) rfl

theorem Searching.pendingStep (next : PublishPhase) (hnext : next.attemptsBehind = 0)
    (hlinking : isLinking next = false) {error : SerialZmodemError}
    (herror : (PublishPhase.dropPending error).attemptsBehind = 0) :
    Searching received found (s.pendingStep outcome next error) := by
  unfold PublishRun.pendingStep
  split_ifs
  · exact h.of_phase (hnext ▸ Nat.zero_le _) hlinking
  · exact h.of_phase (herror ▸ Nat.zero_le _) rfl

theorem Searching.inspect (name : List Char) (next : PublishPhase) (hnext : next.attemptsBehind = 0)
    (hlinking : isLinking next = false) :
    Searching received found (s.inspect received outcome name next) := by
  unfold PublishRun.inspect
  split_ifs
  · exact h.jobStep next hnext hlinking .inspect
  · exact h.of_phase (Nat.zero_le _) rfl

theorem Searching.nextAttempt (hvalid : validateReceiveName received.fileName = .ok ()) {number : ℕ}
    (hphase : s.phase = .attempt number) :
    Searching received found (s.nextAttempt received number) := by
  have hbehind : s.phase.attemptsBehind = number := by rw [hphase]; rfl
  unfold PublishRun.nextAttempt
  split_ifs with hlast
  · exact h.of_phase (hbehind.symm ▸ hlast) rfl
  · have hname := uniqueDestinationName_eq hvalid (Nat.lt_of_not_le hlast)
    rw [hname]
    rcases hbegin : s.cell.beginCommit with ⟨cell, _ | _⟩
    · exact h.of_phase (Nat.zero_le _) rfl
    · refine ⟨fun other hother => h.behind other (hbehind.symm ▸ hother), fun other name heq => ?_⟩
      cases heq
      exact hname

theorem Searching.hardLink {number : ℕ} {name : List Char}
    (hphase : s.phase = .hardLink number name) (hmono : ∀ number, found number → found' number)
    (htaken : s.directory name ≠ none → found' number)
    (htruth : outcome = .alreadyExists → s.directory name ≠ none) :
    Searching received found' (s.hardLink received outcome number name) := by
  have hretry : s.directory name ≠ none → Searching received found' (s.goto (.retry number)) := by
    intro hname
    refine ⟨fun other hother => ?_, fun _ _ heq => nomatch heq⟩
    rcases Nat.lt_succ_iff_lt_or_eq.mp hother with hlt | rfl
    · exact hmono other (h.behind other (by rw [hphase]; exact hlt))
    · exact htaken hname
  have hfail : Searching received found' (s.fail (.nativeFileFailed .publish)) :=
    (h.mono hmono).of_phase (Nat.zero_le _) rfl
  unfold PublishRun.hardLink
  cases houtcome : outcome with
  | alreadyExists => exact hretry (htruth houtcome)
  | failure => exact hfail
  | success =>
      cases s.directory received.stageName with
      | none => exact hfail
      | some file =>
          cases hname : s.directory name with
          | none => exact (h.mono hmono).of_phase (Nat.zero_le _) rfl
          | some other => exact hretry (hname ▸ Option.some_ne_none other)

theorem Searching.retry {number : ℕ} (hphase : s.phase = .retry number) :
    Searching received found (s.retry number) := by
  unfold PublishRun.retry
  rcases s.cell.retryAfterNameConflict with ⟨cell, _ | _⟩
  · simp only
    split_ifs
    · exact h.of_phase (Nat.zero_le _) rfl
    · exact h.of_phase (Nat.zero_le _) rfl
  · exact h.of_phase (by rw [hphase]; exact le_rfl) rfl

/-- A step of the job either has nothing behind it or what was behind the last one, and the name
that it could not link. -/
theorem Searching.job (hvalid : validateReceiveName received.fileName = .ok ())
    (hmono : ∀ number, found number → found' number)
    (htaken : ∀ number name, s.phase = .hardLink number name → s.directory name ≠ none →
      found' number)
    (htruth : ∀ number name, s.phase = .hardLink number name → outcome = .alreadyExists →
      s.directory name ≠ none) : Searching received found' (s.job received outcome) := by
  have h' := h.mono hmono
  unfold PublishRun.job
  cases hphase : s.phase with
  | takeFile => exact h'.pendingStep _ rfl rfl rfl
  | flushFile => exact h'.pendingStep _ rfl rfl rfl
  | syncFile => exact h'.pendingStep _ rfl rfl rfl
  | dropPending error =>
      exact h'.of_phase (by rw [hphase]; cases error <;> exact le_rfl) rfl
  | applyMetadata => exact h'.jobStep _ rfl rfl _
  | syncStage => exact h'.jobStep _ rfl rfl _
  | inspectStage => exact h'.inspect _ _ rfl rfl
  | attempt number => exact h'.nextAttempt hvalid hphase
  | hardLink number name =>
      exact h.hardLink hphase hmono (htaken number name hphase) (htruth number name hphase)
  | retry number => exact h'.retry hphase
  | withdraw => exact h'.of_phase (Nat.zero_le _) rfl
  | inspectPublished name => exact h'.inspect _ _ rfl rfl
  | removeStage name =>
      simp only [PublishRun.removeStage]
      split_ifs
      · exact h'.of_phase (Nat.zero_le _) rfl
      · exact h'.of_phase (Nat.zero_le _) rfl
  | syncDirectory name => exact h'.jobStep _ rfl rfl _
  | finish name =>
      simp only [PublishRun.finish]
      rcases s.cell.finishCommit with ⟨cell, _ | _⟩
      · exact h'.of_phase (Nat.zero_le _) rfl
      · exact h'.of_phase (Nat.zero_le _) rfl
  | disarm name => exact h'.of_phase (Nat.zero_le _) rfl
  | rollbackPublished => exact h'.of_phase (Nat.zero_le _) rfl
  | rollbackStage => exact h'.of_phase (Nat.zero_le _) rfl
  | rollbackSync =>
      refine h'.of_phase ?_ rfl
      simp only [goto]
      split_ifs
      · exact Nat.zero_le _
      · exact Nat.zero_le _
  | finishCancelled rollback =>
      cases rollback with
      | ok _ => exact h'.of_phase (Nat.zero_le _) rfl
      | error error =>
          exact h'.of_phase (by rw [hphase]; cases error <;> exact le_rfl) rfl
  | dropPublished result =>
      have hle : ∀ result : PublishResult, (PublishPhase.dropStage result).attemptsBehind ≤
          (PublishPhase.dropPublished result).attemptsBehind ∧
          (PublishPhase.done result).attemptsBehind ≤
            (PublishPhase.dropPublished result).attemptsBehind := by
        rintro (error | name)
        · cases error <;> exact ⟨le_rfl, le_rfl⟩
        · exact ⟨le_rfl, le_rfl⟩
      show Searching received found' (if s.stage.cleanupArmed then _ else _)
      split_ifs
      · exact h'.of_phase (hphase ▸ (hle result).1) rfl
      · exact h'.of_phase (hphase ▸ (hle result).2) rfl
  | dropStage result =>
      refine h'.of_phase ?_ rfl
      rw [hphase]
      rcases result with error | name
      · cases error <;> exact le_rfl
      · exact le_rfl
  | done result => exact h'

end Job

/-- Along a run the names of the attempts behind the job were taken when it tried them. -/
theorem run_searching (hvalid : validateReceiveName received.fileName = .ok ()) {start : PublishRun}
    (hstart : start.phase = .takeFile) {actions : List Action}
    (hrun : Run (TruthfulStep received) start actions s) :
    Searching received (FoundTaken received start actions) s := by
  induction hrun with
  | refl =>
      refine ⟨fun number hnumber => ?_, fun _ _ heq => ?_⟩
      · rw [hstart] at hnumber
        exact absurd hnumber (Nat.not_lt_zero _)
      · rw [hstart] at heq
        cases heq
  | @snoc t u actions action hrun hstep ih =>
      have hmono : ∀ number, FoundTaken received start actions number →
          FoundTaken received start (actions ++ [action]) number := by
        rintro number ⟨name, earlier, found, hname, hearlier, hfound⟩
        exact ⟨name, earlier, found, hname, hearlier.trans (List.prefix_append _ _), hfound⟩
      cases hstep.1 with
      | job outcome hrunning =>
          refine ih.job hvalid hmono (fun number name hphase htaken => ?_)
            fun number name hphase h => hstep.2 number name hphase (h ▸ rfl)
          exact ⟨name, actions, t, ih.linking number name hphase, List.prefix_append _ _, hrun,
            htaken⟩
      | load hcall => exact ⟨(ih.mono hmono).behind, ih.linking⟩
      | exchange hcall =>
          rename_i index expected next
          have hphase : (t.exchange index expected next).phase = t.phase := by
            unfold PublishRun.exchange
            rcases t.cell.compareExchange expected next with ⟨cell, _ | _⟩ <;> rfl
          exact ⟨hphase ▸ (ih.mono hmono).behind, hphase ▸ ih.linking⟩
      | create file hfree hstage hlinked => exact ⟨(ih.mono hmono).behind, ih.linking⟩

end PublishRun

/-! ### The names of a file -/

open PublishRun Runs in
/-- **A received file gets a safe name.**  Every attempt has a valid name within the limit, with the
file's extension where that leaves room; different attempts have different names, but for a name of
the greatest length that has the counter of the attempt already; and the job gives up only after it
has found the name of every attempt taken. -/
theorem destination_names (hvalid : validateReceiveName fileName = .ok ()) :
    (∀ attempt < maxUniqueDestinationAttempts, ∃ name,
      uniqueDestinationName fileName attempt = .ok name ∧ validateReceiveName name = .ok () ∧
      (encodeUtf8 name).length ≤ maxFilenameBytes ∧
      ∀ extension, 0 < attempt → (splitExtension fileName).2 = some extension →
        ('.' :: extension) <:+ name ∨
          maxFilenameBytes ≤ (encodeUtf8 extension).length + (counter attempt).length + 2) ∧
    (∀ a b, a < b → b < maxUniqueDestinationAttempts →
      (uniqueDestinationName fileName a = uniqueDestinationName fileName b ↔
        a = 0 ∧ (encodeUtf8 fileName).length = maxFilenameBytes ∧
          keptExtension fileName b = (splitExtension fileName).2 ∧
          counter b <:+ (splitExtension fileName).1)) ∧
    ∀ received before actions s, received.fileName = fileName →
      Run (TruthfulStep received) (start received before) actions s →
      s.phase = .done (.error .destinationExists) →
      ∀ attempt < maxUniqueDestinationAttempts,
        FoundTaken received (start received before) actions attempt := by
  obtain ⟨hclean, hbytes⟩ := validateReceiveName_ok_iff.mp hvalid
  refine ⟨fun attempt hattempt => ?_, fun a b hab hb => ?_, ?_⟩
  · obtain ⟨hcandidate, hfits⟩ := candidate_valid hclean hbytes hattempt
    refine ⟨candidate fileName attempt, uniqueDestinationName_eq hvalid hattempt,
      validateReceiveName_ok_iff.mpr ⟨hcandidate, hfits⟩, by rwa [length_encodeUtf8], ?_⟩
    intro extension _ hextension
    rcases keptExtension_cases fileName attempt with ⟨hkept, -⟩ | ⟨-, value, hvalue, hroom⟩
    · have hsuffix := dotted_suffix (.inr hkept)
      rw [hextension] at hsuffix
      exact .inl hsuffix
    · rw [hextension] at hvalue
      obtain rfl := Option.some.inj hvalue
      exact .inr (by rwa [length_encodeUtf8])
  · rw [uniqueDestinationName_eq hvalid (hab.trans hb), uniqueDestinationName_eq hvalid hb,
      Except.ok.injEq, candidate_eq_iff hbytes hab hb, length_encodeUtf8]
  · intro received before actions s hname hrun hdone attempt hattempt
    have hsearching := run_searching (hname.symm ▸ hvalid) rfl hrun
    refine hsearching.behind attempt ?_
    rw [hdone]
    exact hattempt

theorem destination_names_plain :
    validateReceiveName ['a', '.', 'b'] = .ok () ∧ ∃ name,
      uniqueDestinationName ['a', '.', 'b'] 3 = .ok name ∧ validateReceiveName name = .ok () := by
  have hvalid : validateReceiveName ['a', '.', 'b'] = .ok () :=
    validateReceiveName_ok_iff.mpr
      ⟨⟨List.forall_iff_forall_mem.mp (by decide), by decide, by decide, by decide⟩, by decide⟩
  obtain ⟨name, hname, hvalid', -⟩ := (destination_names hvalid).1 3 (by decide)
  exact ⟨hvalid, name, hname, hvalid'⟩

/-- A name of the greatest length that has the counter of the first attempt. -/
def fullName : List Char := List.replicate 251 'x' ++ counter 1

theorem fullName_chars : ∀ c ∈ fullName, c = 'x' ∨ c ∈ counter 1 := by
  intro c hc
  rcases List.mem_append.mp hc with hc | hc
  · exact .inl (List.eq_of_mem_replicate hc)
  · exact .inr hc

theorem splitExtension_fullName : splitExtension fullName = (fullName, none) := by
  have hdots : fullName.rdropWhile (· ≠ '.') = [] := by
    rw [List.rdropWhile_eq_nil_iff]
    intro c hc
    rcases fullName_chars c hc with rfl | hc
    · decide
    · revert c
      exact fun c _ hc => (List.forall_iff_forall_mem.mp (by decide) :
        ∀ c ∈ counter 1, decide (c ≠ '.') = true) c hc
  unfold splitExtension
  rw [hdots]
  rfl

/-- **Two attempts have the same candidate**: the name is cut where its counter begins. -/
theorem fullName_twice :
    validateReceiveName fullName = .ok () ∧
      uniqueDestinationName fullName 0 = uniqueDestinationName fullName 1 := by
  have hcounter : (counter 1).length = 4 := by decide
  have hbytes : bytesOf fullName = maxFilenameBytes := by
    rw [bytesOf_ascii fun c hc => ?_]
    · rw [fullName, List.length_append, List.length_replicate, hcounter]
      rfl
    · rcases fullName_chars c hc with rfl | hc
      · decide
      · exact (counter_chars 1 c hc).1
  have hclean : CleanName fullName := by
    refine cleanName_of (fun c hc => ?_) (fun c hc => ?_) (fun c hc => ?_)
      ⟨'x', List.mem_append_left _ (List.mem_replicate.mpr ⟨by decide, rfl⟩), by decide⟩
    · rcases fullName_chars c hc with rfl | hc
      · decide
      · exact (counter_chars 1 c hc).2
    · cases hc
      decide
    · rw [fullName, counter_eq, ← List.append_assoc, List.getLast?_concat] at hc
      cases hc
      decide
  have hvalid := validateReceiveName_ok_iff.mpr ⟨hclean, hbytes.le⟩
  refine ⟨hvalid, ?_⟩
  rw [uniqueDestinationName_eq hvalid (by decide), uniqueDestinationName_eq hvalid (by decide),
    (candidate_eq_iff hbytes.le (a := 0) (b := 1) (by decide) (by decide)).mpr]
  refine ⟨rfl, hbytes, ?_, ?_⟩
  · rw [keptExtension, splitExtension_fullName]
    rfl
  · rw [splitExtension_fullName]
    exact List.suffix_append _ _

end Netcatty.Serial
