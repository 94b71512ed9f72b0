import Mathlib.Data.List.Sort

/-! # Catalogs of keyed records

A catalog is a list of records with a key.  `checkUnique` passes over a catalog once, checks each
record and refuses a key that it has seen; it succeeds exactly where every record passes and no key
repeats (`checkUnique_ok_iff`).  `sortBy` is a stable sort by a comparison: a permutation
(`sortBy_perm`), in order where the comparison is transitive (`ordered_sortBy`), and without effect
on what is in order (`sortBy_of_ordered`).  `lookupBy` finds the record of a key; where no key
repeats it does not depend on the order of the catalog (`lookupBy_eq_some_iff`). -/

namespace Netcatty.Catalog

variable {α κ ε : Type}

/-! ### Checks -/

section Checks

variable (check : α → Except ε Unit)

def checkAll : List α → Except ε Unit
  | [] => .ok ()
  | a :: rest => do
    check a
    checkAll rest

theorem bind_ok_iff {β γ : Type} {x : Except ε β} {f : β → Except ε γ} {c : γ} :
    (x >>= f) = .ok c ↔ ∃ b, x = .ok b ∧ f b = .ok c := by
  cases x with
  | error e => simp [bind, Except.bind]
  | ok b => simp [bind, Except.bind]

theorem pure_ok_iff {β : Type} {b c : β} : (pure b : Except ε β) = .ok c ↔ c = b := by
  simp [pure, Except.pure, eq_comm]

/-- What a check in front of a computation adds to its success. -/
theorem check_ok_iff {γ : Type} {x : Except ε Unit} {f : Unit → Except ε γ} {c : γ} :
    (x >>= f) = .ok c ↔ x = .ok () ∧ f () = .ok c := by
  cases x with
  | error e => simp [bind, Except.bind]
  | ok b => simp [bind, Except.bind]

/-- What a refusal in front of a computation adds to its success. -/
theorem refuse_ok_iff {γ : Type} {p : Prop} [Decidable p] {e : ε} {f : Unit → Except ε γ} {c : γ} :
    (if p then Except.error e >>= f else f ()) = .ok c ↔ ¬ p ∧ f () = .ok c := by
  split_ifs with h
  · simp [h, bind, Except.bind]
  · simp [h]

/-- What a conditional check in front of a computation adds to its success. -/
theorem when_ok_iff {γ : Type} {p : Prop} [Decidable p] {x : Except ε Unit}
    {f : Unit → Except ε γ} {c : γ} :
    (if p then x >>= f else f ()) = .ok c ↔ (p → x = .ok ()) ∧ f () = .ok c := by
  by_cases h : p
  · rw [if_pos h, check_ok_iff]
    simp [h]
  · simp [h]

theorem choose_ok_iff {β γ : Type} {p : Prop} [Decidable p] {x y : Except ε β}
    {f : β → Except ε γ} {c : γ} :
    (if p then x >>= f else y >>= f) = .ok c ↔
      ∃ b, (if p then x else y) = .ok b ∧ f b = .ok c := by
  rw [← bind_ok_iff]
  split <;> rfl

theorem checkAll_ok_iff {l : List α} :
    checkAll check l = .ok () ↔ ∀ a ∈ l, check a = .ok () := by
  induction l with
  | nil => simp [checkAll]
  | cons a rest ih => simp [checkAll, check_ok_iff, ih]

variable [DecidableEq κ] (key : α → κ) (duplicate : α → ε)

/-- One pass with the keys seen so far. -/
def checkUnique : List κ → List α → Except ε (List κ)
  | seen, [] => .ok seen
  | seen, a :: rest => do
    check a
    if key a ∈ seen then .error (duplicate a) else checkUnique (key a :: seen) rest

theorem checkUnique_ok_iff {seen seen' : List κ} {l : List α} :
    checkUnique check key duplicate seen l = .ok seen' ↔
      (∀ a ∈ l, check a = .ok ()) ∧ (l.map key).Nodup ∧ (∀ a ∈ l, key a ∉ seen) ∧
        seen' = (l.map key).reverse ++ seen := by
  induction l generalizing seen with
  | nil => simp [checkUnique, eq_comm]
  | cons a rest ih =>
      rw [checkUnique, check_ok_iff]
      by_cases hseen : key a ∈ seen
      · simp [hseen]
      · simp only [hseen, if_false, ih, List.mem_cons, not_or, forall_eq_or_imp, List.map_cons,
          List.nodup_cons, List.mem_map, not_exists, not_and, List.reverse_cons, List.append_assoc,
          List.singleton_append, not_false_eq_true, true_and]
        constructor
        · rintro ⟨hcheck, hrest, hnodup, hnew, hseen'⟩
          exact ⟨⟨hcheck, hrest⟩, ⟨fun b hb => (hnew b hb).1, hnodup⟩, fun b hb => (hnew b hb).2,
            hseen'⟩
        · rintro ⟨⟨hcheck, hrest⟩, ⟨hne, hnodup⟩, hnew, hseen'⟩
          exact ⟨hcheck, hrest, hnodup, fun b hb => ⟨hne b hb, hnew b hb⟩, hseen'⟩

/-- A result that depends on a pass by its success alone. -/
theorem checkUnique_pure_ok_iff {β : Type} {seen : List κ} {l : List α} {b c : β} :
    (do let _ ← checkUnique check key duplicate seen l
        pure b) = .ok c ↔
      ((∀ a ∈ l, check a = .ok ()) ∧ (l.map key).Nodup ∧ ∀ a ∈ l, key a ∉ seen) ∧ c = b := by
  simp only [bind_ok_iff, checkUnique_ok_iff, pure_ok_iff]
  constructor
  · rintro ⟨-, ⟨hcheck, hnodup, hnew, rfl⟩, hc⟩
    exact ⟨⟨hcheck, hnodup, hnew⟩, hc⟩
  · rintro ⟨⟨hcheck, hnodup, hnew⟩, hc⟩
    exact ⟨_, ⟨hcheck, hnodup, hnew, rfl⟩, hc⟩

end Checks

/-! ### Sorting -/

section Sorting

variable (cmp : α → α → Ordering)

def sortBy (l : List α) : List α := l.insertionSort fun a b => (cmp a b).isLE

/-- Sorted, as far as the comparison tells. -/
def Ordered (l : List α) : Prop := l.Pairwise fun a b => (cmp a b).isLE

theorem sortBy_perm (l : List α) : (sortBy cmp l).Perm l := List.perm_insertionSort _ l

@[simp] theorem mem_sortBy {l : List α} {a : α} : a ∈ sortBy cmp l ↔ a ∈ l :=
  (sortBy_perm cmp l).mem_iff

@[simp] theorem sortBy_nil : sortBy cmp [] = [] := rfl

variable {cmp}

theorem sortBy_of_ordered {l : List α} (h : Ordered cmp l) : sortBy cmp l = l :=
  List.Pairwise.insertionSort_eq h

theorem ordered_sortBy [Std.TransCmp cmp] (l : List α) : Ordered cmp (sortBy cmp l) := by
  have : IsTrans α fun a b => (cmp a b).isLE := ⟨fun _ _ _ => Std.TransCmp.isLE_trans⟩
  have : Std.Total fun a b => ((cmp a b).isLE : Prop) := by
    refine ⟨fun a b => ?_⟩
    have hswap : cmp b a = (cmp a b).swap := Std.OrientedCmp.eq_swap
    rw [hswap]
    cases cmp a b <;> simp
  exact List.pairwise_insertionSort _ l

theorem Ordered.sublist {l l' : List α} (h : Ordered cmp l) (hs : l'.Sublist l) : Ordered cmp l' :=
  List.Pairwise.sublist hs h

end Sorting

/-! ### Lookup -/

section Lookup

variable [DecidableEq κ] (key : α → κ)

/-- The last record of a key. -/
def lookupBy (l : List α) (k : κ) : Option α := l.reverse.find? (key · = k)

variable {key}

theorem lookupBy_mem {l : List α} {k : κ} {a : α} (h : lookupBy key l k = some a) :
    a ∈ l ∧ key a = k :=
  ⟨List.mem_reverse.mp (List.mem_of_find?_eq_some h), by simpa using List.find?_some h⟩

theorem lookupBy_isSome {l : List α} {k : κ} :
    (lookupBy key l k).isSome ↔ ∃ a ∈ l, key a = k := by
  simp [lookupBy, List.find?_isSome]

theorem lookupBy_eq_none {l : List α} {k : κ} : lookupBy key l k = none ↔ ∀ a ∈ l, key a ≠ k := by
  simp [lookupBy, List.find?_eq_none]

omit [DecidableEq κ] in
/-- Where no key repeats, a key has one record. -/
theorem eq_of_key_eq {l : List α} (h : (l.map key).Nodup) {a b : α} (ha : a ∈ l) (hb : b ∈ l)
    (hk : key a = key b) : a = b := List.inj_on_of_nodup_map h ha hb hk

theorem lookupBy_eq_some_iff {l : List α} (h : (l.map key).Nodup) {k : κ} {a : α} :
    lookupBy key l k = some a ↔ a ∈ l ∧ key a = k := by
  refine ⟨lookupBy_mem, fun ⟨ha, hk⟩ => ?_⟩
  obtain ⟨b, hb⟩ := Option.isSome_iff_exists.mp (lookupBy_isSome.mpr ⟨a, ha, hk⟩)
  obtain ⟨hbmem, hbk⟩ := lookupBy_mem hb
  rw [hb, eq_of_key_eq h ha hbmem (hk.trans hbk.symm)]

theorem find?_eq_some_iff {l : List α} (h : (l.map key).Nodup) {k : κ} {a : α} :
    l.find? (key · = k) = some a ↔ a ∈ l ∧ key a = k := by
  have hrev : (l.reverse.map key).Nodup := by rwa [List.map_reverse, List.nodup_reverse]
  have := lookupBy_eq_some_iff hrev (k := k) (a := a)
  simpa [lookupBy] using this

theorem find?_eq_lookupBy {l : List α} (h : (l.map key).Nodup) (k : κ) :
    l.find? (key · = k) = lookupBy key l k :=
  Option.ext fun a => by rw [find?_eq_some_iff h, lookupBy_eq_some_iff h]

theorem filter_key_eq_nil_iff {l : List α} {k : κ} :
    l.filter (key · = k) = [] ↔ lookupBy key l k = none := by
  rw [lookupBy_eq_none, List.filter_eq_nil_iff]
  simp

theorem lookupBy_of_filter_key {l : List α} {k : κ} {a : α} (h : l.filter (key · = k) = [a]) :
    lookupBy key l k = some a := by
  have hmem : ∀ b, b ∈ l ∧ key b = k ↔ b = a := fun b => by
    have : b ∈ l.filter (key · = k) ↔ b ∈ [a] := by rw [h]
    rwa [List.mem_filter, decide_eq_true_iff, List.mem_singleton] at this
  obtain ⟨ha, hk⟩ := (hmem a).mpr rfl
  obtain ⟨b, hb⟩ := Option.isSome_iff_exists.mp (lookupBy_isSome.mpr ⟨a, ha, hk⟩)
  rw [hb, (hmem b).mp (lookupBy_mem hb)]

/-- Where no key repeats, the record of a key is the only one of it. -/
theorem filter_key_of_lookupBy {l : List α} (h : (l.map key).Nodup) {k : κ} {a : α}
    (hl : lookupBy key l k = some a) : l.filter (key · = k) = [a] := by
  obtain ⟨ha, rfl⟩ := lookupBy_mem hl
  have hall : ∀ b ∈ l.filter (key · = key a), b = a := fun b hb => by
    obtain ⟨hb, hk⟩ := List.mem_filter.mp hb
    exact eq_of_key_eq h hb ha (of_decide_eq_true hk)
  have hnodup : (l.filter (key · = key a)).Nodup := h.of_map.filter _
  refine List.perm_singleton.mp ((List.perm_ext_iff_of_nodup hnodup (List.nodup_singleton a)).mpr
    fun b => ?_)
  rw [List.mem_singleton]
  refine ⟨hall b, fun hb => ?_⟩
  rw [hb]
  exact List.mem_filter.mpr ⟨ha, decide_eq_true rfl⟩

/-- Where no key repeats, the order of the catalog does not matter. -/
theorem lookupBy_perm {l l' : List α} (h : (l.map key).Nodup) (hp : l.Perm l') (k : κ) :
    lookupBy key l k = lookupBy key l' k := by
  have h' : (l'.map key).Nodup := (hp.map key).nodup_iff.mp h
  refine Option.ext fun a => ?_
  rw [lookupBy_eq_some_iff h, lookupBy_eq_some_iff h', hp.mem_iff]

end Lookup

/-! ### Merging -/

section Merge

inductive Disposition
  | importable
  | duplicate
  | conflict
  deriving DecidableEq, Repr

variable [DecidableEq κ] (key : α → κ) (equal clash : α → α → Bool) (excluded : α → Bool)

/-- What is to become of one candidate: `clash` compares it with every record, `equal` with the
record of its key. -/
def classify (existing : List α) (candidate : α) : Disposition :=
  if excluded candidate || existing.any (clash · candidate) then .conflict
  else
    match lookupBy key existing (key candidate) with
    | none => .importable
    | some current => if equal current candidate then .duplicate else .conflict

/-- One pass over the candidates, each of which is compared with what has been added before it: the
records afterwards, and those that are new. -/
def merge (conflict : α → ε) : List α → List α → Except ε (List α × List α)
  | existing, [] => .ok (existing, [])
  | existing, candidate :: rest =>
    if excluded candidate || existing.any (clash · candidate) then .error (conflict candidate)
    else
      match existing.find? (key · = key candidate) with
      | some current =>
        if equal current candidate then merge conflict existing rest
        else .error (conflict candidate)
      | none => do
        let (merged, added) ← merge conflict (existing ++ [candidate]) rest
        return (merged, candidate :: added)

variable {key equal clash excluded}

theorem classify_importable_iff {existing : List α} {candidate : α} :
    classify key equal clash excluded existing candidate = .importable ↔
      excluded candidate = false ∧
        ∀ a ∈ existing, clash a candidate = false ∧ key a ≠ key candidate := by
  unfold classify
  split_ifs with hclash
  · rw [Bool.or_eq_true, List.any_eq_true] at hclash
    refine iff_of_false (by simp) fun ⟨hexcluded, h⟩ => ?_
    rcases hclash with hclash | ⟨a, ha, hclash⟩
    · simp [hexcluded] at hclash
    · simp [(h a ha).1] at hclash
  · simp only [Bool.or_eq_true, List.any_eq_true, not_or, not_exists, not_and,
      Bool.not_eq_true] at hclash
    cases hlookup : lookupBy key existing (key candidate) with
    | none =>
        have hnone := lookupBy_eq_none.mp hlookup
        exact iff_of_true rfl ⟨hclash.1, fun a ha => ⟨hclash.2 a ha, hnone a ha⟩⟩
    | some current =>
        obtain ⟨hmem, hkey⟩ := lookupBy_mem hlookup
        refine iff_of_false ?_ fun ⟨_, h⟩ => (h current hmem).2 hkey
        simp only
        split_ifs <;> simp

theorem classify_duplicate_iff {existing : List α} (hnodup : (existing.map key).Nodup)
    {candidate : α} :
    classify key equal clash excluded existing candidate = .duplicate ↔
      excluded candidate = false ∧ (∀ a ∈ existing, clash a candidate = false) ∧
        ∃ current ∈ existing, key current = key candidate ∧ equal current candidate = true := by
  unfold classify
  split_ifs with hclash
  · rw [Bool.or_eq_true, List.any_eq_true] at hclash
    refine iff_of_false (by simp) fun ⟨hexcluded, h, _⟩ => ?_
    rcases hclash with hclash | ⟨a, ha, hclash⟩
    · simp [hexcluded] at hclash
    · simp [h a ha] at hclash
  · simp only [Bool.or_eq_true, List.any_eq_true, not_or, not_exists, not_and,
      Bool.not_eq_true] at hclash
    cases hlookup : lookupBy key existing (key candidate) with
    | none =>
        have hnone := lookupBy_eq_none.mp hlookup
        exact iff_of_false (by simp) fun ⟨_, _, current, hmem, hkey, _⟩ => hnone current hmem hkey
    | some current =>
        obtain ⟨hmem, hkey⟩ := lookupBy_mem hlookup
        simp only
        split_ifs with hequal
        · exact iff_of_true rfl ⟨hclash.1, hclash.2, current, hmem, hkey, hequal⟩
        · refine iff_of_false (by simp) fun ⟨_, _, other, hother, hkey', hequal'⟩ => hequal ?_
          rwa [eq_of_key_eq hnodup hmem hother (hkey.trans hkey'.symm)]

theorem classify_append {existing : List α} {a candidate : α}
    (hnodup : ((existing ++ [a]).map key).Nodup) (hkey : key candidate ≠ key a)
    (hclash : clash a candidate = false) :
    classify key equal clash excluded (existing ++ [a]) candidate =
      classify key equal clash excluded existing candidate := by
  have hlookup : lookupBy key (existing ++ [a]) (key candidate) =
      lookupBy key existing (key candidate) := by
    have hnodup' : (existing.map key).Nodup := by
      rw [List.map_append] at hnodup
      exact hnodup.of_append_left
    refine Option.ext fun b => ?_
    rw [lookupBy_eq_some_iff hnodup, lookupBy_eq_some_iff hnodup', List.mem_append,
      List.mem_singleton]
    constructor
    · rintro ⟨hmem | rfl, hb⟩
      · exact ⟨hmem, hb⟩
      · exact absurd hb.symm hkey
    · exact fun ⟨hmem, hb⟩ => ⟨Or.inl hmem, hb⟩
  simp only [classify, hlookup, List.any_append, List.any_cons, List.any_nil, hclash, Bool.or_false]

/-- What the pass decides about its first candidate is the disposition of that candidate. -/
theorem merge_cons {conflict : α → ε} {existing rest : List α} {candidate : α}
    (hnodup : (existing.map key).Nodup) :
    merge key equal clash excluded conflict existing (candidate :: rest) =
      match classify key equal clash excluded existing candidate with
      | .conflict => .error (conflict candidate)
      | .duplicate => merge key equal clash excluded conflict existing rest
      | .importable => do
        let (merged, added) ← merge key equal clash excluded conflict (existing ++ [candidate]) rest
        return (merged, candidate :: added) := by
  rw [merge, classify, find?_eq_lookupBy hnodup]
  split_ifs with hclash
  · rfl
  · cases lookupBy key existing (key candidate) with
    | none => rfl
    | some current =>
        simp only
        split_ifs <;> rfl

/-- A merge appends some of the candidates. -/
theorem merge_ok {conflict : α → ε} {existing candidates merged added : List α}
    (h : merge key equal clash excluded conflict existing candidates = .ok (merged, added)) :
    merged = existing ++ added ∧ added.Sublist candidates := by
  induction candidates generalizing existing merged added with
  | nil =>
      cases h
      simp
  | cons candidate rest ih =>
      rw [merge] at h
      split at h
      · exact absurd h (by simp)
      split at h
      · split at h
        · obtain ⟨hmerged, hadded⟩ := ih h
          exact ⟨hmerged, hadded.cons _⟩
        · exact absurd h (by simp)
      · obtain ⟨⟨merged', added'⟩, hrest, h⟩ := bind_ok_iff.mp h
        cases h
        obtain ⟨hmerged, hadded⟩ := ih hrest
        exact ⟨by rw [hmerged, List.append_assoc, List.singleton_append], hadded.cons_cons _⟩

/-- The first match is the same for two tests that agree on the members. -/
theorem find?_congr_mem {p q : α → Bool} {items : List α} (h : ∀ a ∈ items, p a = q a) :
    items.find? p = items.find? q := by
  induction items with
  | nil => rfl
  | cons a rest ih =>
      rw [List.find?_cons, List.find?_cons, h a (by simp),
        ih fun b hb => h b (List.mem_cons_of_mem _ hb)]

/-- **A merge succeeds where no candidate conflicts**, and adds those that are importable. -/
theorem merge_eq {conflict : α → ε} {existing candidates : List α}
    (hexisting : (existing.map key).Nodup) (hcandidates : (candidates.map key).Nodup)
    (hclash : candidates.Pairwise fun a b => clash a b = false) :
    merge key equal clash excluded conflict existing candidates =
      match candidates.find? (classify key equal clash excluded existing · = .conflict) with
      | some candidate => .error (conflict candidate)
      | none =>
        let added := candidates.filter
          (classify key equal clash excluded existing · = .importable)
        .ok (existing ++ added, added) := by
  induction candidates generalizing existing with
  | nil => simp [merge]
  | cons candidate rest ih =>
      rw [List.map_cons, List.nodup_cons] at hcandidates
      rw [List.pairwise_cons] at hclash
      rw [merge_cons hexisting]
      cases hc : classify key equal clash excluded existing candidate with
      | conflict => simp [hc]
      | duplicate =>
          rw [ih hexisting hcandidates.2 hclash.2]
          simp [hc]
      | importable =>
          have hnew : key candidate ∉ existing.map key := by
            intro hmem
            obtain ⟨a, ha, hkey⟩ := List.mem_map.mp hmem
            exact ((classify_importable_iff.mp hc).2 a ha).2 hkey
          have hnodup : ((existing ++ [candidate]).map key).Nodup := by
            rw [List.map_append, List.nodup_append]
            refine ⟨hexisting, by simp, fun k hk k' hk' => ?_⟩
            rw [List.map_singleton, List.mem_singleton] at hk'
            rintro rfl
            exact hnew (hk' ▸ hk)
          have hsame : ∀ other ∈ rest,
              classify key equal clash excluded (existing ++ [candidate]) other =
                classify key equal clash excluded existing other := fun other hother =>
            classify_append hnodup (fun heq => hcandidates.1 (heq ▸ List.mem_map_of_mem hother))
              (hclash.1 other hother)
          have hconflict : rest.find?
              (classify key equal clash excluded (existing ++ [candidate]) · = .conflict) =
              rest.find? (classify key equal clash excluded existing · = .conflict) :=
            find?_congr_mem fun other hother => by rw [hsame other hother]
          have hadded : (rest.filter
              (classify key equal clash excluded (existing ++ [candidate]) · = .importable)) =
              rest.filter (classify key equal clash excluded existing · = .importable) :=
            List.filter_congr fun other hother => by rw [hsame other hother]
          simp only
          rw [ih hnodup hcandidates.2 hclash.2, hconflict, hadded]
          rw [List.find?_cons_of_neg (by simp [hc])]
          cases rest.find? (classify key equal clash excluded existing · = .conflict) with
          | some other => rfl
          | none => simp [bind, Except.bind, pure, Except.pure, hc]

end Merge

end Netcatty.Catalog
