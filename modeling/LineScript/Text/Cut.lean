/-!
# Cutting at a mark

A sequence is cut at every occurrence of one element, which belongs to no piece. There is
always one piece more than there are marks, and the pieces joined by the mark are the sequence.
-/

namespace LineScript

variable {α : Type} [DecidableEq α]

/-- Cuts a sequence at `mark` into a first piece and the pieces after it. -/
def cutAt (mark : α) (items : List α) : List α × List (List α) :=
  items.foldr (fun x cut => if x = mark then ([], cut.1 :: cut.2) else (x :: cut.1, cut.2)) ([], [])

@[simp] theorem cutAt_nil (mark : α) : cutAt mark [] = ([], []) := rfl

theorem cutAt_mark (mark : α) (items : List α) :
    cutAt mark (mark :: items) = ([], (cutAt mark items).1 :: (cutAt mark items).2) := by
  simp [cutAt]

theorem cutAt_cons {mark x : α} (h : x ≠ mark) (items : List α) :
    cutAt mark (x :: items) = (x :: (cutAt mark items).1, (cutAt mark items).2) := by
  simp [cutAt, h]

/-- Without a mark there is one piece. -/
theorem cutAt_of_not_mem {mark : α} {piece : List α} (plain : mark ∉ piece) :
    cutAt mark piece = (piece, []) := by
  induction piece with
  | nil => exact cutAt_nil mark
  | cons x piece ih =>
    have other : x ≠ mark := fun same => plain (same ▸ List.mem_cons_self)
    rw [cutAt_cons other, ih fun mem => plain (List.mem_cons_of_mem x mem)]

/-- The pieces of a sequence with a mark in it are those in front of the mark and those behind. -/
theorem cutAt_append_mark (mark : α) (front back : List α) :
    cutAt mark (front ++ mark :: back) =
      ((cutAt mark front).1,
        (cutAt mark front).2 ++ (cutAt mark back).1 :: (cutAt mark back).2) := by
  induction front with
  | nil => exact cutAt_mark mark back
  | cons x rest ih =>
    by_cases h : x = mark
    · rw [h, List.cons_append, cutAt_mark, cutAt_mark, ih]
      rfl
    · rw [List.cons_append, cutAt_cons h, cutAt_cons h, ih]

/-- One piece more than there are marks. -/
theorem length_cutAt (mark : α) (items : List α) :
    (cutAt mark items).2.length = items.count mark := by
  induction items with
  | nil => rfl
  | cons x rest ih =>
    by_cases h : x = mark
    · subst h; simp [cutAt_mark, ih]
    · simp [cutAt_cons h, ih, h]

end LineScript
