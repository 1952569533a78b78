import Mathlib

/-!
# Reading a list by offsets while it grows

A reader asks for `n` entries from an offset on, and for those behind them as long as it is given
`n`. Each time it sees the list as it is then, and in between the list may have grown at its front,
as one does that is kept latest first. All places shift then, and what the reader is given next may
start with what it has seen.

It may see entries again, but it skips none (`sublist_readAll`), and from a list that stays as it is
it reads every entry once (`flatten_readAll`). It comes to an end unless the list grows as fast as
it reads (`exists_readAll`).
-/

namespace OffsetPaging

variable {α : Type} {n offset : ℕ} {l l' : List α} {ls pages : List (List α)}

/-- The entries a reader is given for an offset. -/
def page (n offset : ℕ) (l : List α) : List α := (l.drop offset).take n

/-- The pages a reader is given, from the list as it is each time; `none` if it has not come to a
page that is not full. -/
def readAll (n : ℕ) : (offset : ℕ) → List (List α) → Option (List (List α))
  | _, [] => none
  | offset, l :: ls =>
    if (page n offset l).length = n then
      (readAll n (offset + n) ls).map fun pages ↦ page n offset l :: pages
    else some [page n offset l]

theorem readAll_of_full (h : (page n offset l).length = n) :
    readAll n offset (l :: ls) =
      (readAll n (offset + n) ls).map fun pages ↦ page n offset l :: pages :=
  if_pos h

theorem readAll_of_short (h : (page n offset l).length ≠ n) :
    readAll n offset (l :: ls) = some [page n offset l] :=
  if_neg h

/-- A page that is not full is all there is. -/
theorem page_eq_drop (h : (page n offset l).length ≠ n) : page n offset l = l.drop offset := by
  refine List.take_of_length_le (le_of_not_gt fun hlt ↦ h ?_)
  rw [page, List.length_take, min_eq_left hlt.le]

/-- A reader that is given such a page stops, with all there is. -/
theorem flatten_of_short (hshort : (page n offset l).length ≠ n)
    (h : readAll n offset (l :: ls) = some pages) : pages.flatten = l.drop offset := by
  rw [readAll_of_short hshort] at h
  cases h
  rw [List.flatten_singleton, page_eq_drop hshort]

/-- A page, and what is behind it. -/
theorem page_append (n offset : ℕ) (l : List α) :
    page n offset l ++ l.drop (offset + n) = l.drop offset := by
  rw [page, ← List.drop_drop, List.take_append_drop]

/-- A full page ends within the list. -/
theorem le_length_of_full (hpos : 0 < n) (h : (page n offset l).length = n) :
    offset + n ≤ l.length := by
  rw [page, List.length_take, List.length_drop] at h
  omega

/-- **A reader that asks for more than there is comes to an end.** -/
theorem exists_readAll {bound : ℕ} (hpos : 0 < n) (hne : ls ≠ [])
    (hbound : ∀ l ∈ ls, l.length ≤ bound) (hmore : bound < offset + ls.length * n) :
    ∃ pages, readAll n offset ls = some pages := by
  induction ls generalizing offset with
  | nil => exact absurd rfl hne
  | cons l ls ih =>
    obtain ⟨hnow, hbound⟩ := List.forall_mem_cons.1 hbound
    by_cases hfull : (page n offset l).length = n
    · have hwithin := le_length_of_full hpos hfull
      have hrest : bound < offset + n + ls.length * n := by
        rwa [List.length_cons, Nat.succ_mul, Nat.add_comm (ls.length * n), ← Nat.add_assoc]
          at hmore
      -- the page is full, so this was not the last time
      have hne : ls ≠ [] := by
        rintro rfl
        rw [List.length_nil, Nat.zero_mul] at hrest
        omega
      obtain ⟨pages, hpages⟩ := ih hne hbound hrest
      exact ⟨_, (readAll_of_full hfull).trans (congrArg (Option.map _) hpages)⟩
    · exact ⟨_, readAll_of_short hfull⟩

/-- In front of a list that has grown there are entries at least as late. -/
theorem drop_sublist_of_suffix (h : l <:+ l') (k : ℕ) : (l.drop k).Sublist (l'.drop k) := by
  obtain ⟨new, rfl⟩ := h
  rw [List.drop_append]
  refine List.Sublist.trans ?_ (List.sublist_append_right _ _)
  have hle : k - new.length ≤ k := Nat.sub_le _ _
  exact List.drop_sublist_drop_left l hle

/-- **From a list that stays as it is, every entry is read once.** -/
theorem flatten_readAll (hsame : ∀ l' ∈ ls, l' = l) (h : readAll n offset ls = some pages) :
    pages.flatten = l.drop offset := by
  induction ls generalizing offset pages with
  | nil => cases h
  | cons l' ls ih =>
    obtain ⟨rfl, hsame⟩ := List.forall_mem_cons.1 hsame
    by_cases hfull : (page n offset l').length = n
    · rw [readAll_of_full hfull] at h
      obtain ⟨rest, hrest, rfl⟩ := Option.map_eq_some_iff.1 h
      rw [List.flatten_cons, ih hsame hrest, page_append]
    · exact flatten_of_short hfull h

/-- **From a list that grows at its front, no entry is skipped** that was there at first. -/
theorem sublist_readAll (hgrows : (l :: ls).Pairwise (· <:+ ·))
    (h : readAll n offset (l :: ls) = some pages) : (l.drop offset).Sublist pages.flatten := by
  induction ls generalizing l offset pages with
  | nil =>
    by_cases hfull : (page n offset l).length = n
    · rw [readAll_of_full hfull] at h
      cases h
    · rw [flatten_of_short hfull h]
  | cons l' ls ih =>
    by_cases hfull : (page n offset l).length = n
    · rw [readAll_of_full hfull] at h
      obtain ⟨rest, hrest, rfl⟩ := Option.map_eq_some_iff.1 h
      obtain ⟨hlater, hgrows⟩ := List.pairwise_cons.1 hgrows
      have hbehind := drop_sublist_of_suffix (hlater l' (.head _)) (offset + n)
      rw [List.flatten_cons, ← page_append n offset l]
      exact (hbehind.trans (ih hgrows hrest)).append_left _
    · rw [flatten_of_short hfull h]

end OffsetPaging
