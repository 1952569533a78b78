import Mathlib

/-!
# A list kept as a counter and a table

Storage that can only be read key by key keeps a growing list as a **counter** and a **table**: the
next entry goes under the counter's value, and the counter goes up by one. `Holds` says which list a
counter and a table stand for. Nothing at or above the counter is written, appending keeps it
(`Holds.append`), and a scan over the keys from some index on reads a segment of it (`Holds.scan`).

A reader who asks for one segment after the other, each from where the last one stopped, need not
hold the list still: what was read stays a segment while the list grows (`IsRead.grow`), each
further page extends it (`IsRead.page`), and a page that finds nothing says that all was read
(`IsRead.eq_drop`).
-/

namespace CountedLog

variable {α : Type} {count : ℕ} {slot : ℕ → Option α} {l : List α}

/-- **The list a counter and a table stand for.** -/
structure Holds (count : ℕ) (slot : ℕ → Option α) (l : List α) : Prop where
  /-- The counter is the length of the list. -/
  count : count = l.length
  /-- The slots hold its entries in order, and those behind are empty. -/
  slot : ∀ i, slot i = l[i]?

theorem holds_nil : Holds 0 (fun _ ↦ (none : Option α)) [] := ⟨rfl, fun _ ↦ rfl⟩

/-- **Appending**: write under the counter, and count. -/
theorem Holds.append (h : Holds count slot l) (a : α) :
    Holds (count + 1) (Function.update slot count (some a)) (l ++ [a]) where
  count := by rw [List.length_append, List.length_singleton, h.count]
  slot i := by
    rcases lt_trichotomy i count with hlt | rfl | hgt
    · rw [Function.update_of_ne hlt.ne, h.slot, List.getElem?_append_left (h.count ▸ hlt)]
    · rw [Function.update_self, h.count, List.getElem?_concat_length]
    · have hout : (l ++ [a]).length ≤ i := by
        rw [List.length_append, List.length_singleton, ← h.count]
        exact hgt
      rw [Function.update_of_ne hgt.ne', h.slot, List.getElem?_eq_none hout]
      exact List.getElem?_eq_none (h.count ▸ hgt.le)

/-- What was appended later does not change what is there. -/
theorem Holds.slot_of_prefix {count' : ℕ} {slot' : ℕ → Option α} {l' : List α}
    (h : Holds count slot l) (h' : Holds count' slot' l') (hl : l <+: l') {i : ℕ} (hi : i < count) :
    slot' i = slot i := by
  obtain ⟨later, rfl⟩ := hl
  rw [h.slot, h'.slot, List.getElem?_append_left (h.count ▸ hi)]

/-- A list whose entries are in order is read in order. -/
theorem Holds.rel_of_pairwise {r : α → α → Prop} (h : Holds count slot l) (hl : l.Pairwise r)
    (hrefl : ∀ a, r a a) {i j : ℕ} {a b : α} (hij : i ≤ j) (ha : slot i = some a)
    (hb : slot j = some b) : r a b := by
  rw [h.slot] at ha hb
  obtain ⟨hi, rfl⟩ := List.getElem?_eq_some_iff.1 ha
  obtain ⟨hj, rfl⟩ := List.getElem?_eq_some_iff.1 hb
  rcases hij.eq_or_lt with rfl | hlt
  · exact hrefl _
  · exact List.pairwise_iff_getElem.1 hl i j hi hj hlt

/-- Reading up to `n` entries from the index `i` on. -/
def scan (count : ℕ) (slot : ℕ → Option α) : ℕ → ℕ → List α
  | 0, _ => []
  | n + 1, i => if i < count then (slot i).toList ++ scan count slot n (i + 1) else []

/-- **A scan reads a segment of the list.** -/
theorem Holds.scan (h : Holds count slot l) (n i : ℕ) :
    scan count slot n i = (l.drop i).take n := by
  induction n generalizing i with
  | zero => simp [CountedLog.scan]
  | succ n ih =>
    by_cases hi : i < count
    · have hlength : i < l.length := h.count ▸ hi
      rw [CountedLog.scan, if_pos hi, ih, h.slot, List.getElem?_eq_getElem hlength,
        List.drop_eq_getElem_cons hlength]
      rfl
    · have hlength : l.length ≤ i := h.count ▸ not_lt.1 hi
      rw [CountedLog.scan, if_neg hi, List.drop_eq_nil_of_le hlength, List.take_nil]

/-! ### Reading while the list grows -/

variable {l' read : List α} {first n : ℕ}

/-- What was read is the segment of the list that starts at `first`. -/
def IsRead (l : List α) (first : ℕ) (read : List α) : Prop := read <+: l.drop first

theorem isRead_nil : IsRead l first [] := List.nil_prefix

theorem IsRead.grow (h : IsRead l first read) (hl : l <+: l') : IsRead l' first read := by
  obtain ⟨later, rfl⟩ := hl
  rw [IsRead, List.drop_append]
  exact h.trans (List.prefix_append _ _)

/-- What is left to read starts where the reader stopped. -/
theorem IsRead.append_drop (h : IsRead l first read) :
    read ++ l.drop (first + read.length) = l.drop first := by
  rw [← List.drop_drop]
  exact List.prefix_iff_eq_append.1 h

/-- **The next page** goes on where the reader stopped. -/
theorem IsRead.page (h : IsRead l first read) (n : ℕ) :
    IsRead l first (read ++ (l.drop (first + read.length)).take n) := by
  rw [IsRead, ← h.append_drop]
  exact (List.prefix_append_right_inj read).2 (List.take_prefix n _)

/-- **An empty page is the end of the list.** -/
theorem IsRead.eq_drop (h : IsRead l first read) (hn : 0 < n)
    (hempty : (l.drop (first + read.length)).take n = []) : read = l.drop first := by
  have hrest : l.drop (first + read.length) = [] :=
    (List.take_eq_nil_iff.1 hempty).resolve_left hn.ne'
  have hall := h.append_drop
  rwa [hrest, List.append_nil] at hall

/-- A segment is read entry by entry. -/
theorem IsRead.getElem? (h : IsRead l first read) {k : ℕ} (hk : k < read.length) :
    read[k]? = l[first + k]? := by
  obtain ⟨rest, hrest⟩ := h
  rw [← List.getElem?_drop, ← hrest, List.getElem?_append_left hk]

end CountedLog
