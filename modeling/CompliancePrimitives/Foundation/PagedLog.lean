import Mathlib

/-!
# Reading an ordered log page by page

A **log** is a list of entries in the order of their keys, each with a token of its own. A server
hands it out in pages: whoever names the token of the last entry it has seen is given the next
ones, at most so many of them and none beyond a **horizon** the server decides on anew for every
page.

What a reader has to know about this is here, with no reader in it:

* a page is a prefix of what is left to read (`isPrefix_page`), and naming its last token moves on
  by exactly that page (`after_getLast`), so the pages that were read are together a prefix of the
  log — nothing is skipped and nothing is seen twice;
* a page that is not full has reached its horizon: everything left is beyond it
  (`lt_of_mem_drop_page`);
* rows made from two spans of the keys that do not meet never stand for the same entry
  (`subperm_append_of_span`).
-/

namespace PagedLog

variable {α β κ τ : Type}

/-! ### Pages -/

section Page

variable [LinearOrder κ] (key : α → κ)

/-- The entries come in the order of their keys. -/
def Ordered (log : List α) : Prop :=
  log.Pairwise fun a b ↦ key a ≤ key b

/-- The next page of what is left: the first `n` entries that are not beyond the horizon. -/
def page (n : ℕ) (horizon : κ) (rest : List α) : List α :=
  (rest.filter fun a ↦ decide (key a ≤ horizon)).take n

variable {key} {log rest : List α} {n : ℕ} {horizon : κ} {a : α}

theorem mem_of_mem_page (h : a ∈ page key n horizon rest) : a ∈ rest ∧ key a ≤ horizon := by
  simpa using List.mem_filter.1 (List.mem_of_mem_take h)

theorem Ordered.filter (h : Ordered key log) (p : α → Bool) : Ordered key (log.filter p) :=
  List.Pairwise.filter p h

theorem Ordered.of_append_right {l : List α} (h : Ordered key (l ++ rest)) : Ordered key rest :=
  (List.pairwise_append.1 h).2.1

/-- In an ordered log the entries up to a horizon come first. -/
theorem Ordered.filter_append_filter (h : Ordered key rest) (horizon : κ) :
    (rest.filter fun a ↦ decide (key a ≤ horizon)) ++
        (rest.filter fun a ↦ decide (horizon < key a)) = rest := by
  induction rest with
  | nil => rfl
  | cons a rest ih =>
    obtain ⟨hhead, htail⟩ := List.pairwise_cons.1 h
    by_cases ha : key a ≤ horizon
    · simp [ha, not_lt.2 ha, ih htail]
    · have hnone : rest.filter (fun b ↦ decide (key b ≤ horizon)) = [] :=
        List.filter_eq_nil_iff.2 fun b hb ↦ by
          simpa using (not_le.1 ha).trans_le (hhead b hb)
      have hall : rest.filter (fun b ↦ decide (horizon < key b)) = rest :=
        List.filter_eq_self.2 fun b hb ↦ by
          simpa using (not_le.1 ha).trans_le (hhead b hb)
      simp [ha, not_le.1 ha, hnone, hall]

/-- **A span of an ordered log, cut in two.** -/
theorem Ordered.filter_span {key : α → ℕ} (h : Ordered key rest) {first cut last : ℕ}
    (hfirst : first ≤ cut + 1) (hlast : cut ≤ last) :
    (rest.filter fun a ↦ decide (first ≤ key a ∧ key a ≤ cut)) ++
        (rest.filter fun a ↦ decide (cut + 1 ≤ key a ∧ key a ≤ last)) =
      rest.filter fun a ↦ decide (first ≤ key a ∧ key a ≤ last) := by
  have hsplit := (h.filter fun a ↦ decide (first ≤ key a ∧ key a ≤ last)).filter_append_filter cut
  rw [List.filter_filter, List.filter_filter] at hsplit
  rw [← hsplit]
  congr 1 <;> refine List.filter_congr fun a _ ↦ ?_ <;>
    rw [← Bool.decide_and, decide_eq_decide] <;> omega

theorem isPrefix_page (h : Ordered key rest) : page key n horizon rest <+: rest := by
  have hle : rest.filter (fun a ↦ decide (key a ≤ horizon)) <+: rest :=
    ⟨_, h.filter_append_filter horizon⟩
  have htake : page key n horizon rest <+: rest.filter fun a ↦ decide (key a ≤ horizon) :=
    ⟨_, List.take_append_drop n _⟩
  exact htake.trans hle

/-- What is left to read, as the page and what is left after it. -/
theorem page_append_drop (h : Ordered key rest) :
    page key n horizon rest ++ rest.drop (page key n horizon rest).length = rest :=
  List.prefix_iff_eq_append.1 (isPrefix_page h)

/-- **A page that is not full has reached its horizon.** -/
theorem lt_of_mem_drop_page (h : Ordered key rest) (hshort : (page key n horizon rest).length ≠ n)
    (ha : a ∈ rest.drop (page key n horizon rest).length) : horizon < key a := by
  -- a short page was not cut off by its limit, so it is everything up to the horizon
  have hfull : page key n horizon rest = rest.filter fun a ↦ decide (key a ≤ horizon) := by
    refine List.take_of_length_le (le_of_not_gt fun hlt ↦ hshort ?_)
    rw [page, List.length_take, min_eq_left hlt.le]
  have hsplit := h.filter_append_filter horizon
  rw [← hfull] at hsplit
  have hdrop : rest.drop (page key n horizon rest).length =
      rest.filter fun a ↦ decide (horizon < key a) :=
    List.append_cancel_left ((page_append_drop h).trans hsplit.symm)
  rw [hdrop] at ha
  simpa using List.of_mem_filter ha

/-- Once an entry of a prefix is beyond a bound, so is everything after the prefix. -/
theorem Ordered.lt_of_mem_append {l : List α} {bound : κ} (h : Ordered key (l ++ rest)) {b : α}
    (hb : b ∈ l) (hbound : bound < key b) (ha : a ∈ rest) : bound < key a :=
  hbound.trans_le ((List.pairwise_append.1 h).2.2 b hb a ha)

end Page

/-! ### Cursors -/

section Cursor

variable [DecidableEq τ] (token : α → τ)

/-- What is left to read after the entry a cursor names. -/
def after (log : List α) : Option τ → List α
  | none => log
  | some t => (log.dropWhile fun a ↦ decide (token a ≠ t)).tail

variable {token} {log read rest p : List α}

/-- **Naming the last entry of what was read moves on to the rest.** -/
theorem after_getLast (hnodup : ((read ++ rest).map token).Nodup) {a : α}
    (ha : read.getLast? = some a) : after token (read ++ rest) (some (token a)) = rest := by
  obtain ⟨init, rfl⟩ := List.getLast?_eq_some_iff.1 ha
  have hinit : ∀ b ∈ init, token b ≠ token a := by
    intro b hb heq
    simp only [List.append_assoc, List.map_append, List.nodup_append] at hnodup
    exact hnodup.2.2 (token b) (List.mem_map_of_mem hb) (token a) (by simp) heq
  rw [after, List.append_assoc, List.dropWhile_append_of_pos (by simpa using hinit)]
  simp

end Cursor

/-! ### Rows made from a log -/

section Rows

variable {f : α → Option β} {log : List α} {p : α → Bool} {q : β → Bool} {old new : List β}

/-- Filtering the rows is filtering the entries they are made from. -/
theorem filter_filterMap_of_agree (hagree : ∀ a ∈ log, ∀ b, f a = some b → q b = p a) :
    (log.filterMap f).filter q = (log.filter p).filterMap f := by
  induction log with
  | nil => rfl
  | cons a log ih =>
    have ih' := ih fun a' ha' ↦ hagree a' (List.mem_cons_of_mem _ ha')
    rcases hfa : f a with _ | b
    · by_cases hpa : p a = true <;> simp [hfa, hpa, ih']
    · have hqb := hagree a List.mem_cons_self b hfa
      by_cases hpa : p a = true <;> simp [hfa, hpa, hqb, ih']

/-- **Spans that do not meet.** Rows outside of a span that stand for entries one by one still do
so together with rows made from entries inside of it. -/
theorem subperm_append_of_span (hagree : ∀ a ∈ log, ∀ b, f a = some b → q b = p a)
    (hold : old.Subperm (log.filterMap f)) (hout : ∀ b ∈ old, q b = false)
    (hnew : new.Subperm ((log.filter p).filterMap f)) :
    (old ++ new).Subperm (log.filterMap f) := by
  -- rows outside of the span are rows of entries outside of it
  have hold' : old.Subperm ((log.filter fun a ↦ !p a).filterMap f) := by
    have hself : old.filter (fun b ↦ !q b) = old :=
      List.filter_eq_self.2 fun b hb ↦ by simpa using hout b hb
    rw [← hself, ← filter_filterMap_of_agree (q := fun b ↦ !q b)]
    · exact hold.filter _
    · intro a ha b hb
      rw [hagree a ha b hb]
  refine (hold'.append hnew).trans ?_
  rw [← List.filterMap_append]
  exact ((List.perm_append_comm.trans (List.filter_append_perm p log)).filterMap f).subperm

end Rows

end PagedLog
