import Mathlib.Data.List.DropRight

/-!
# Parts told apart by a mark
-/

namespace Lib

variable {α : Type*} {mark : α} {parts : List (List α)}

theorem intercalate_marked (first : List α) :
    [mark].intercalate (first :: parts) = first ++ parts.flatMap (mark :: ·) := by
  induction parts generalizing first with
  | nil => simp
  | cons second parts ih =>
      rw [List.intercalate_cons_cons, ih, List.flatMap_cons]
      simp

theorem splitOn_marked [DecidableEq α] (unmarked : ∀ part ∈ parts, mark ∉ part) :
    (parts.flatMap (mark :: ·)).splitOn mark = [] :: parts := by
  have joined : parts.flatMap (mark :: ·) = [mark].intercalate ([] :: parts) := by
    rw [intercalate_marked, List.nil_append]
  rw [joined]
  apply List.splitOn_intercalate
  · intro part member
    rcases List.mem_cons.mp member with rfl | member
    · exact List.not_mem_nil
    · exact unmarked part member
  · exact List.cons_ne_nil _ _

theorem splitOn_terminated [DecidableEq α] (unmarked : ∀ part ∈ parts, mark ∉ part) :
    (parts.flatMap (· ++ [mark])).splitOn mark = parts ++ [[]] := by
  induction parts with
  | nil => rfl
  | cons part parts ih =>
      have later := ih fun part member => unmarked part (List.mem_cons_of_mem _ member)
      rw [List.flatMap_cons, List.append_assoc, List.singleton_append,
        List.splitOn_append_cons_self_of_not_mem (unmarked part List.mem_cons_self), later,
        List.cons_append]

theorem rtakeWhile_behind {p : α → Bool} {stop : α} (front : List α) {tail : List α}
    (all : ∀ x ∈ tail, p x) (stops : ¬ p stop) : (front ++ stop :: tail).rtakeWhile p = tail := by
  have split : (front ++ stop :: tail).reverse = tail.reverse ++ (stop :: front.reverse) := by simp
  have all' : ∀ x ∈ tail.reverse, p x := fun x member => all x (List.mem_reverse.mp member)
  rw [List.rtakeWhile, split, List.takeWhile_append_of_pos all', List.takeWhile_cons_of_neg stops,
    List.append_nil, List.reverse_reverse]

end Lib
