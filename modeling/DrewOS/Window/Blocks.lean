/-
# Stretches of a text without a mark

A text is written block by block, and every block that is not empty has a marked
element.  A stretch of the text without one then lies in two neighbouring blocks, so
what it can contain is bounded by what two blocks contain (`countP_infix`).
-/

import Mathlib.Data.List.Infix

namespace Window

variable {α : Type} {mark : α → Prop} {q : α → Bool} {m n : ℕ} {blocks : List (List α)}

/-- The blocks that are not empty have a mark, and none has more than `m` elements in `q`. -/
structure Blocks (mark : α → Prop) (q : α → Bool) (m : ℕ) (blocks : List (List α)) : Prop where
  marked : ∀ blk ∈ blocks, blk ≠ [] → ∃ a ∈ blk, mark a
  count : ∀ blk ∈ blocks, blk.countP q ≤ m

/-- What remains behind the first block. -/
theorem Blocks.tail {blk : List α} (h : Blocks mark q m (blk :: blocks)) :
    Blocks mark q m blocks :=
  ⟨fun b hb => h.marked b (List.mem_cons_of_mem _ hb),
    fun b hb => h.count b (List.mem_cons_of_mem _ hb)⟩

/-- **At the start.**  A stretch that reaches beyond the first block contains its mark. -/
theorem Blocks.countP_prefix (h : Blocks mark q m blocks) {seg : List α}
    (hseg : seg <+: blocks.flatten) (hmark : ∀ a ∈ seg, ¬ mark a) : seg.countP q ≤ m := by
  induction blocks generalizing seg with
  | nil => simp [List.prefix_nil.1 hseg]
  | cons blk blocks ih =>
    rw [List.flatten_cons] at hseg
    rcases List.prefix_or_prefix_of_prefix hseg (List.prefix_append _ _) with hfirst | hbeyond
    · exact hfirst.sublist.countP_le.trans (h.count blk List.mem_cons_self)
    · by_cases hempty : blk = []
      · rw [hempty, List.nil_append] at hseg
        exact ih h.tail hseg hmark
      · obtain ⟨a, ha, hmarked⟩ := h.marked blk List.mem_cons_self hempty
        exact absurd hmarked (hmark a (hbeyond.subset ha))

/-- **Anywhere.**  A stretch without a mark lies in two neighbouring blocks. -/
theorem Blocks.countP_infix (h : Blocks mark q m blocks) {seg : List α}
    (hseg : seg <:+: blocks.flatten) (hmark : ∀ a ∈ seg, ¬ mark a) : seg.countP q ≤ 2 * m := by
  induction blocks with
  | nil => simp [List.infix_nil.1 hseg]
  | cons blk blocks ih =>
    have hcount := h.count blk List.mem_cons_self
    rw [List.flatten_cons] at hseg
    rcases List.infix_append_iff.1 hseg with hin | hin | ⟨l, l', rfl, hl, hl'⟩
    · have := hin.sublist.countP_le (p := q)
      omega
    · exact ih h.tail hin
    · have := hl.sublist.countP_le (p := q)
      have := h.tail.countP_prefix hl' fun a ha => hmark a (List.mem_append_right _ ha)
      rw [List.countP_append]
      omega

/-- Behind any beginning. -/
theorem Blocks.countP_infix_append (h : Blocks mark q m blocks) {pre seg : List α}
    (hpre : pre.countP q ≤ n) (hseg : seg <:+: pre ++ blocks.flatten)
    (hmark : ∀ a ∈ seg, ¬ mark a) : seg.countP q ≤ n + 2 * m := by
  rcases List.infix_append_iff.1 hseg with hin | hin | ⟨l, l', rfl, hl, hl'⟩
  · have := hin.sublist.countP_le (p := q)
    omega
  · have := h.countP_infix hin hmark
    omega
  · have := hl.sublist.countP_le (p := q)
    have := h.countP_prefix hl' fun a ha => hmark a (List.mem_append_right _ ha)
    rw [List.countP_append]
    omega

end Window
