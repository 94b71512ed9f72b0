import Mathlib.Data.List.Nodup
import Mathlib.Tactic.Common

/-! # A cursor on a list that loses elements

When the element under the cursor is removed from a list, the cursor moves to the next one, and to
the one before it where it was the last (`neighbour`).  Where elements are removed one after the
other, in any order, the cursor is always at the element that is nearest to where it stood at first
(`nearest_remove`). -/

namespace Netcatty.Cursor

variable {α : Type} [DecidableEq α]

/-- Where the cursor goes when the element under it is removed. -/
def neighbour (l : List α) (x : α) : Option α :=
  (l.drop (l.idxOf x + 1)).head?.or (l.take (l.idxOf x)).getLast?

/-- The element itself where it is alive, else the first one to its right, else to its left. -/
def nearest (alive : α → Bool) (l : List α) (x : α) : Option α :=
  if alive x then some x
  else ((l.drop (l.idxOf x + 1)).find? alive).or ((l.take (l.idxOf x)).reverse.find? alive)

theorem idxOf_split {left right : List α} {x : α} (h : x ∉ left) :
    (left ++ x :: right).idxOf x = left.length := by
  rw [List.idxOf_append_of_notMem h, List.idxOf_cons_self, Nat.add_zero]

theorem neighbour_split {left right : List α} {x : α} (h : x ∉ left) :
    neighbour (left ++ x :: right) x = right.head?.or left.getLast? := by
  rw [neighbour, idxOf_split h, List.take_left, ← List.drop_drop, List.drop_left]
  rfl

theorem nearest_split (alive : α → Bool) {left right : List α} {x : α} (h : x ∉ left) :
    nearest alive (left ++ x :: right) x =
      if alive x then some x
      else (right.filter alive).head?.or (left.filter alive).getLast? := by
  rw [nearest, idxOf_split h, List.take_left, ← List.drop_drop, List.drop_left, List.drop_one,
    List.tail_cons, List.head?_filter, List.getLast?_eq_head?_reverse, ← List.filter_reverse,
    List.head?_filter]

/-- The elements that stay. -/
def without (alive : α → Bool) (x : α) (y : α) : Bool := alive y && y ≠ x

theorem filter_without (alive : α → Bool) (x : α) (l : List α) :
    l.filter (without alive x) = (l.filter alive).filter (· ≠ x) := by
  rw [List.filter_filter]
  exact List.filter_congr fun _ _ => Bool.and_comm _ _

theorem filter_ne_of_notMem {l : List α} {x : α} (h : x ∉ l) : l.filter (· ≠ x) = l :=
  List.filter_eq_self.mpr fun _ hy => decide_eq_true fun heq => h (heq ▸ hy)

/-- The elements that stay on either side of the cursor, if it is not alive itself. -/
theorem nearest_sides {left right : List α} {x c : α} (hnodup : (left ++ right).Nodup)
    (h : right.head?.or left.getLast? = some c) :
    (right.filter (· ≠ x)).head?.or (left.filter (· ≠ x)).getLast? =
      if c = x then neighbour (left ++ right) x else some c := by
  cases right with
  | cons r right =>
      obtain rfl : r = c := Option.some.inj h
      by_cases hr : r = x
      · subst hr
        have hleft : r ∉ left := fun hmem =>
          (List.nodup_append.mp hnodup).2.2 r hmem r List.mem_cons_self rfl
        have hright : r ∉ right := (List.nodup_cons.mp (List.nodup_append.mp hnodup).2.1).1
        rw [if_pos rfl, neighbour_split hleft, List.filter_cons_of_neg (by simp),
          filter_ne_of_notMem hright, filter_ne_of_notMem hleft]
      · rw [if_neg hr, List.filter_cons_of_pos (by simpa using hr)]
        rfl
  | nil =>
      obtain ⟨init, rfl⟩ : ∃ init, left = init ++ [c] := List.getLast?_eq_some_iff.mp h
      rw [List.append_nil] at hnodup ⊢
      by_cases hc : c = x
      · subst hc
        have hinit : c ∉ init := fun hmem =>
          (List.nodup_append.mp hnodup).2.2 c hmem c List.mem_cons_self rfl
        rw [if_pos rfl, neighbour_split hinit, List.filter_append, filter_ne_of_notMem hinit]
        simp
      · rw [if_neg hc, List.filter_append, List.filter_singleton]
        simp [hc]

/-- **One more element removed.**  The cursor stays where it is, unless it stands on the element. -/
theorem nearest_remove {alive : α → Bool} {l : List α} (hnodup : l.Nodup) {start x c : α}
    (hstart : start ∈ l) (h : nearest alive l start = some c) :
    nearest (without alive x) l start =
      if c = x then neighbour (l.filter alive) x else some c := by
  obtain ⟨left, right, rfl, hleft⟩ := List.eq_append_cons_of_mem hstart
  have hright : start ∉ right := (List.nodup_cons.mp (List.nodup_append.mp hnodup).2.1).1
  rw [nearest_split _ hleft] at h ⊢
  rw [List.filter_append, filter_without, filter_without]
  cases halive : alive start with
  | true =>
      rw [halive, if_pos rfl] at h
      obtain rfl := Option.some.inj h
      rw [List.filter_cons_of_pos halive]
      have hleft' : start ∉ left.filter alive := fun hmem => hleft (List.mem_filter.mp hmem).1
      have hright' : start ∉ right.filter alive := fun hmem => hright (List.mem_filter.mp hmem).1
      by_cases hx : start = x
      · subst hx
        rw [if_pos rfl, neighbour_split hleft', filter_ne_of_notMem hleft',
          filter_ne_of_notMem hright', if_neg]
        simp [without]
      · rw [if_neg hx, if_pos]
        simpa [without, halive] using hx
  | false =>
      rw [halive, if_neg Bool.false_ne_true] at h
      rw [List.filter_cons_of_neg (by rw [halive]; exact Bool.false_ne_true), if_neg]
      · refine nearest_sides ?_ h
        rw [← List.filter_append]
        refine List.Nodup.filter _ (hnodup.sublist ?_)
        exact (List.sublist_cons_self start right).append_left left
      · simp [without, halive]

/-- The cursor is at an element that stays. -/
theorem nearest_mem {alive : α → Bool} {l : List α} {start c : α} (hstart : start ∈ l)
    (h : nearest alive l start = some c) : c ∈ l.filter alive := by
  obtain ⟨left, right, rfl, hleft⟩ := List.eq_append_cons_of_mem hstart
  rw [nearest_split _ hleft] at h
  rw [List.filter_append]
  split_ifs at h with halive
  · obtain rfl := Option.some.inj h
    rw [List.filter_cons_of_pos halive]
    exact List.mem_append_right _ List.mem_cons_self
  · rw [List.filter_cons_of_neg halive]
    rcases Option.or_eq_some_iff.mp h with h | ⟨-, h⟩
    · exact List.mem_append_right _ (List.mem_of_mem_head? h)
    · exact List.mem_append_left _ (List.mem_of_mem_getLast? h)

theorem nearest_congr {alive alive' : α → Bool} {l : List α} {start : α} (hstart : start ∈ l)
    (h : ∀ a ∈ l, alive a = alive' a) : nearest alive l start = nearest alive' l start := by
  obtain ⟨left, right, rfl, hleft⟩ := List.eq_append_cons_of_mem hstart
  rw [nearest_split _ hleft, nearest_split _ hleft, h start hstart,
    List.filter_congr fun a ha => h a (List.mem_append_right _ (List.mem_cons_of_mem _ ha)),
    List.filter_congr fun a ha => h a (List.mem_append_left _ ha)]

/-- Only where nothing stays is there no place for the cursor. -/
theorem neighbour_eq_none {l : List α} {x : α} (hx : x ∈ l) (hnodup : l.Nodup)
    (h : neighbour l x = none) : l.filter (· ≠ x) = [] := by
  obtain ⟨left, right, rfl, hleft⟩ := List.eq_append_cons_of_mem hx
  rw [neighbour_split hleft, Option.or_eq_none_iff] at h
  rw [List.head?_eq_none_iff.mp h.1, List.getLast?_eq_none_iff.mp h.2]
  simp

/-- The neighbour is one of the elements that stay. -/
theorem neighbour_mem {l : List α} {x c : α} (hx : x ∈ l) (hnodup : l.Nodup)
    (h : neighbour l x = some c) : c ∈ l.filter (· ≠ x) := by
  obtain ⟨left, right, rfl, hleft⟩ := List.eq_append_cons_of_mem hx
  have hright : x ∉ right := (List.nodup_cons.mp (List.nodup_append.mp hnodup).2.1).1
  rw [neighbour_split hleft] at h
  rw [List.filter_append, List.filter_cons_of_neg (by simp), filter_ne_of_notMem hleft,
    filter_ne_of_notMem hright]
  rcases Option.or_eq_some_iff.mp h with h | ⟨-, h⟩
  · exact List.mem_append_right _ (List.mem_of_mem_head? h)
  · exact List.mem_append_left _ (List.mem_of_mem_getLast? h)

end Netcatty.Cursor
