import Netcatty.Library.Catalog

/-! # What a merge takes up

A merge that succeeds keeps every record and takes up the candidates whose keys are new
(`merge_takesUp`); it fails with the conflict of a candidate (`merge_error`).  A second merge of the
same candidates finds them all (`merge_again`), and what is looked up in the candidates and the
catalog together is the same before and after (`TakesUp.lookupBy_or`).  `Avoids` says of a
computation that no error of a kind comes out of it. -/

namespace Netcatty.Catalog

variable {α κ ε : Type} {key : α → κ}

/-- The records afterwards, and those that are new, which are the candidates with a new key. -/
structure TakesUp (key : α → κ) (existing candidates result added : List α) : Prop where
  mem_added : ∀ a, a ∈ added ↔ a ∈ candidates ∧ key a ∉ existing.map key
  mem_result : ∀ a, a ∈ result ↔ a ∈ existing ∨ a ∈ added

theorem TakesUp.congr {existing candidates result result' added : List α}
    (h : TakesUp key existing candidates result added) (hmem : ∀ a, a ∈ result' ↔ a ∈ result) :
    TakesUp key existing candidates result' added :=
  ⟨h.mem_added, fun a => (hmem a).trans (h.mem_result a)⟩

/-- No key repeats, and no two candidates clash. -/
structure Mergeable (key : α → κ) (clash : α → α → Bool) (existing candidates : List α) : Prop where
  nodup_existing : (existing.map key).Nodup
  nodup_candidates : (candidates.map key).Nodup
  no_clash : ∀ a ∈ candidates, ∀ b ∈ candidates, clash a b = false

variable [DecidableEq κ]

section Merge

variable {equal clash : α → α → Bool} {excluded : α → Bool} {conflict : α → ε}
  {existing candidates : List α}

theorem Mergeable.merge_eq (h : Mergeable key clash existing candidates) :
    merge key equal clash excluded conflict existing candidates =
      match candidates.find? (classify key equal clash excluded existing · = .conflict) with
      | some candidate => .error (conflict candidate)
      | none =>
        let added := candidates.filter
          (classify key equal clash excluded existing · = .importable)
        .ok (existing ++ added, added) :=
  Catalog.merge_eq h.nodup_existing h.nodup_candidates
    (List.pairwise_of_forall_mem_list fun a ha b hb => h.no_clash a ha b hb)

theorem merge_no_conflict (hm : Mergeable key clash existing candidates) {merged added : List α}
    (h : merge key equal clash excluded conflict existing candidates = .ok (merged, added)) :
    ∀ a ∈ candidates, classify key equal clash excluded existing a ≠ .conflict := by
  rw [hm.merge_eq] at h
  split at h
  · exact absurd h (by simp)
  · rename_i hnone
    exact fun a ha => by simpa using List.find?_eq_none.mp hnone a ha

/-- **A merge takes up what is new.** -/
theorem merge_takesUp (hm : Mergeable key clash existing candidates) {merged added : List α}
    (h : merge key equal clash excluded conflict existing candidates = .ok (merged, added)) :
    TakesUp key existing candidates merged added := by
  have hno := merge_no_conflict hm h
  rw [hm.merge_eq] at h
  split at h
  · exact absurd h (by simp)
  cases h
  refine ⟨fun a => ?_, fun a => List.mem_append⟩
  rw [List.mem_filter, decide_eq_true_eq]
  refine and_congr_right fun ha => ⟨fun himportable hmem => ?_, fun hnew => ?_⟩
  · obtain ⟨b, hb, hkey⟩ := List.mem_map.mp hmem
    exact ((classify_importable_iff.mp himportable).2 b hb).2 hkey
  · cases hclass : classify key equal clash excluded existing a with
    | importable => rfl
    | conflict => exact absurd hclass (hno a ha)
    | duplicate =>
        obtain ⟨-, -, b, hb, hkey, -⟩ := (classify_duplicate_iff hm.nodup_existing).mp hclass
        exact absurd (hkey ▸ List.mem_map_of_mem hb) hnew

/-- A merge that adds nothing returns the catalog as it was. -/
theorem merge_unchanged (hm : Mergeable key clash existing candidates) {merged : List α}
    (h : merge key equal clash excluded conflict existing candidates = .ok (merged, [])) :
    merged = existing := by
  rw [hm.merge_eq] at h
  split at h
  · exact absurd h (by simp)
  · simp only [Except.ok.injEq, Prod.mk.injEq] at h
    rw [← h.1, h.2, List.append_nil]

/-- **A merge fails with the conflict of a candidate.** -/
theorem merge_error (hm : Mergeable key clash existing candidates) {error : ε}
    (h : merge key equal clash excluded conflict existing candidates = .error error) :
    ∃ a ∈ candidates, classify key equal clash excluded existing a = .conflict ∧
      error = conflict a := by
  rw [hm.merge_eq] at h
  split at h
  · rename_i a hfind
    cases h
    exact ⟨a, List.mem_of_find?_eq_some hfind, by simpa using List.find?_some hfind, rfl⟩
  · exact absurd h (by simp)

/-- What is excluded conflicts. -/
theorem not_excluded {a : α} (h : classify key equal clash excluded existing a ≠ .conflict) :
    excluded a = false := by
  rw [Bool.eq_false_iff]
  intro hexcluded
  exact h (by simp [classify, hexcluded])

/-- A second merge finds every candidate, also where more is excluded that none of them is. -/
theorem merge_again {result added : List α} {excluded' : α → Bool}
    (hm : Mergeable key clash existing candidates) (hresult : (result.map key).Nodup)
    (ht : TakesUp key existing candidates result added)
    (hno : ∀ a ∈ candidates, classify key equal clash excluded existing a ≠ .conflict)
    (hrefl : ∀ a, equal a a = true) (hexcluded : ∀ a ∈ candidates, excluded' a = false) :
    merge key equal clash excluded' conflict result candidates = .ok (result, []) := by
  have hduplicate : ∀ a ∈ candidates,
      classify key equal clash excluded' result a = .duplicate := by
    intro a ha
    rw [classify_duplicate_iff hresult]
    have hclash : ∀ b ∈ result, clash b a = false := by
      intro b hb
      rcases (ht.mem_result b).mp hb with hb | hb
      · cases hclass : classify key equal clash excluded existing a with
        | conflict => exact absurd hclass (hno a ha)
        | importable => exact ((classify_importable_iff.mp hclass).2 b hb).1
        | duplicate => exact ((classify_duplicate_iff hm.nodup_existing).mp hclass).2.1 b hb
      · exact hm.no_clash b ((ht.mem_added b).mp hb).1 a ha
    refine ⟨hexcluded a ha, hclash, ?_⟩
    by_cases hnew : key a ∈ existing.map key
    · cases hclass : classify key equal clash excluded existing a with
      | conflict => exact absurd hclass (hno a ha)
      | importable =>
          obtain ⟨b, hb, hkey⟩ := List.mem_map.mp hnew
          exact absurd hkey ((classify_importable_iff.mp hclass).2 b hb).2
      | duplicate =>
          obtain ⟨-, -, b, hb, hkey, hequal⟩ := (classify_duplicate_iff hm.nodup_existing).mp hclass
          exact ⟨b, (ht.mem_result b).mpr (.inl hb), hkey, hequal⟩
    · exact ⟨a, (ht.mem_result a).mpr (.inr ((ht.mem_added a).mpr ⟨ha, hnew⟩)), rfl, hrefl a⟩
  have hagain : Mergeable key clash result candidates := ⟨hresult, hm.nodup_candidates, hm.no_clash⟩
  rw [hagain.merge_eq, List.find?_eq_none.mpr fun a ha => by simp [hduplicate a ha],
    List.filter_eq_nil_iff.mpr fun a ha => by simp [hduplicate a ha]]
  simp

/-- The disposition of a candidate depends on the exclusion only where it speaks of the
candidate. -/
theorem classify_congr {excluded' : α → Bool} {a : α} (h : excluded a = excluded' a) :
    classify key equal clash excluded existing a = classify key equal clash excluded' existing a := by
  simp only [classify, h]

end Merge

/-! ### Lookups after a merge -/

section Lookup

variable {existing candidates result added : List α}

theorem TakesUp.mem_keys (h : TakesUp key existing candidates result added) (k : κ) :
    k ∈ result.map key ↔ k ∈ existing.map key ∨ k ∈ candidates.map key := by
  constructor
  · intro hk
    obtain ⟨a, ha, rfl⟩ := List.mem_map.mp hk
    rcases (h.mem_result a).mp ha with ha | ha
    · exact .inl (List.mem_map_of_mem ha)
    · exact .inr (List.mem_map_of_mem ((h.mem_added a).mp ha).1)
  · rintro (hk | hk)
    · obtain ⟨a, ha, rfl⟩ := List.mem_map.mp hk
      exact List.mem_map_of_mem ((h.mem_result a).mpr (.inl ha))
    · obtain ⟨a, ha, rfl⟩ := List.mem_map.mp hk
      by_cases hnew : key a ∈ existing.map key
      · obtain ⟨b, hb, heq⟩ := List.mem_map.mp hnew
        exact heq ▸ List.mem_map_of_mem ((h.mem_result b).mpr (.inl hb))
      · exact List.mem_map_of_mem ((h.mem_result a).mpr (.inr ((h.mem_added a).mpr ⟨ha, hnew⟩)))

/-- A key that no candidate has is there afterwards where it was before. -/
theorem TakesUp.any_key_eq (h : TakesUp key existing candidates result added) {k : κ}
    (hcandidates : k ∉ candidates.map key) :
    result.any (key · = k) = existing.any (key · = k) := by
  have hany : ∀ l : List α, l.any (key · = k) = true ↔ k ∈ l.map key := by
    intro l
    simp [List.any_eq_true, List.mem_map]
  rw [Bool.eq_iff_iff, hany, hany, h.mem_keys]
  exact ⟨fun hmem => hmem.resolve_right hcandidates, .inl⟩

/-- What is not among the candidates is looked up as before. -/
theorem TakesUp.lookupBy_eq (h : TakesUp key existing candidates result added)
    (hexisting : (existing.map key).Nodup) (hresult : (result.map key).Nodup) {k : κ}
    (hk : k ∉ candidates.map key) : lookupBy key result k = lookupBy key existing k := by
  refine Option.ext fun a => ?_
  rw [lookupBy_eq_some_iff hresult, lookupBy_eq_some_iff hexisting, h.mem_result]
  refine ⟨fun ⟨hmem, hkey⟩ => ⟨hmem.resolve_right fun ha => hk ?_, hkey⟩,
    fun ⟨hmem, hkey⟩ => ⟨.inl hmem, hkey⟩⟩
  exact hkey ▸ List.mem_map_of_mem ((h.mem_added a).mp ha).1

/-- **Candidates in front of the catalog are looked up as before.** -/
theorem TakesUp.lookupBy_or (h : TakesUp key existing candidates result added)
    (hexisting : (existing.map key).Nodup) (hresult : (result.map key).Nodup) (k : κ) :
    (lookupBy key candidates k).or (lookupBy key result k) =
      (lookupBy key candidates k).or (lookupBy key existing k) := by
  cases hlookup : lookupBy key candidates k with
  | some a => rfl
  | none =>
      rw [Option.none_or, Option.none_or, h.lookupBy_eq hexisting hresult]
      intro hk
      obtain ⟨a, ha, heq⟩ := List.mem_map.mp hk
      exact lookupBy_eq_none.mp hlookup a ha heq

/-- The catalog in front of the candidates is searched as before. -/
theorem TakesUp.lookupBy_or_find? (h : TakesUp key existing candidates result added)
    (hcandidates : (candidates.map key).Nodup)
    (hresult : (result.map key).Nodup) (k : κ) :
    (lookupBy key result k).or (candidates.find? (key · = k)) =
      (lookupBy key existing k).or (candidates.find? (key · = k)) := by
  cases hlookup : lookupBy key existing k with
  | some a =>
      obtain ⟨hmem, hkey⟩ := lookupBy_mem hlookup
      rw [(lookupBy_eq_some_iff hresult).mpr ⟨(h.mem_result a).mpr (.inl hmem), hkey⟩]
  | none =>
      have hnew : k ∉ existing.map key := fun hk => by
        obtain ⟨a, ha, heq⟩ := List.mem_map.mp hk
        exact lookupBy_eq_none.mp hlookup a ha heq
      cases hresultLookup : lookupBy key result k with
      | none => rfl
      | some a =>
          obtain ⟨hmem, hkey⟩ := lookupBy_mem hresultLookup
          have hadded := ((h.mem_result a).mp hmem).resolve_left fun ha =>
            hnew (hkey ▸ List.mem_map_of_mem ha)
          have hfind := (find?_eq_some_iff hcandidates).mpr ⟨((h.mem_added a).mp hadded).1, hkey⟩
          rw [Option.some_or, Option.none_or, hfind]

theorem TakesUp.find?_append (h : TakesUp key existing candidates result added)
    (hexisting : (existing.map key).Nodup) (hcandidates : (candidates.map key).Nodup)
    (hresult : (result.map key).Nodup) (k : κ) :
    (result ++ candidates).find? (key · = k) = (existing ++ candidates).find? (key · = k) := by
  rw [List.find?_append, List.find?_append, find?_eq_lookupBy hresult, find?_eq_lookupBy hexisting,
    h.lookupBy_or_find? hcandidates hresult]

end Lookup

/-! ### Errors that do not come out -/

def Avoids (bad : ε → Prop) {β : Type} (x : Except ε β) : Prop := ∀ error, x = .error error → ¬ bad error

section Avoids

variable {bad : ε → Prop} {β γ : Type}

theorem bind_error_iff {x : Except ε β} {f : β → Except ε γ} {error : ε} :
    (x >>= f) = .error error ↔ x = .error error ∨ ∃ b, x = .ok b ∧ f b = .error error := by
  cases x with
  | error e => simp [bind, Except.bind]
  | ok b => simp [bind, Except.bind]

theorem avoids_ok (b : β) : Avoids bad (Except.ok b) := fun _ h => by cases h

theorem avoids_error {error : ε} (h : ¬ bad error) : Avoids bad (Except.error error : Except ε β) :=
  fun _ heq => by cases heq; exact h

theorem Avoids.bind {x : Except ε β} {f : β → Except ε γ} (hx : Avoids bad x)
    (hf : ∀ b, Avoids bad (f b)) : Avoids bad (x >>= f) := by
  intro error h
  cases x with
  | error e =>
      cases h
      exact hx _ rfl
  | ok b => exact hf b error h

theorem Avoids.refuse {p : Prop} [Decidable p] {error : ε} {f : Unit → Except ε γ}
    (herror : ¬ bad error) (hf : Avoids bad (f ())) :
    Avoids bad (if p then Except.error error >>= f else f ()) := by
  split
  · exact Avoids.bind (avoids_error herror) fun _ => hf
  · exact hf

theorem avoids_checkAll {check : α → Except ε Unit} (h : ∀ a, Avoids bad (check a)) (l : List α) :
    Avoids bad (checkAll check l) := by
  induction l with
  | nil => exact avoids_ok ()
  | cons a rest ih => exact (h a).bind fun _ => ih

theorem avoids_checkUnique {check : α → Except ε Unit} {duplicate : α → ε}
    (h : ∀ a, Avoids bad (check a)) (hduplicate : ∀ a, ¬ bad (duplicate a)) (seen : List κ)
    (l : List α) : Avoids bad (checkUnique check key duplicate seen l) := by
  induction l generalizing seen with
  | nil => exact avoids_ok _
  | cons a rest ih =>
      refine (h a).bind fun _ => ?_
      split
      · exact avoids_error (hduplicate a)
      · exact ih _

end Avoids

end Netcatty.Catalog
