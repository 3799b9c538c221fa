/-!
# Ascending lists without repetitions

`ascending l` lists the distinct members of `l` from the smallest to the largest.  It has the same
members as `l` (`mem_ascending`), is strictly ascending (`ascending_strict`), and so depends on
nothing but the set of members (`ascending_congr`).
-/

namespace StatusBoard

variable {α : Type} [Ord α]

/-- Strictly ascending, hence without repetitions. -/
def Strict (l : List α) : Prop := l.Pairwise fun a b => compare a b = .lt

instance (l : List α) : Decidable (Strict l) := inferInstanceAs (Decidable (List.Pairwise _ l))

/-- Add a member to an ascending list, unless it is there already. -/
def addAscending (a : α) : List α → List α
  | [] => [a]
  | b :: rest =>
    match compare a b with
    | .lt => a :: b :: rest
    | .eq => b :: rest
    | .gt => b :: addAscending a rest

/-- The distinct members of a list, ascending. -/
def ascending (l : List α) : List α := l.foldr addAscending []

variable [Std.LawfulEqOrd α]

theorem mem_addAscending {a b : α} {l : List α} : b ∈ addAscending a l ↔ b = a ∨ b ∈ l := by
  induction l with
  | nil => simp [addAscending]
  | cons hd tl ih =>
    rw [addAscending]
    split
    next => simp
    next heq =>
      obtain rfl := Std.LawfulEqCmp.compare_eq_iff_eq.1 heq
      simp
    next => simp only [List.mem_cons, ih, ← or_assoc, or_comm (a := b = hd)]

/-- Sorting and removing repetitions keeps the members. -/
@[simp]
theorem mem_ascending {a : α} {l : List α} : a ∈ ascending l ↔ a ∈ l := by
  induction l with
  | nil => simp [ascending]
  | cons hd tl ih => simpa [ascending, mem_addAscending] using or_congr_right ih

variable [Std.TransOrd α]

theorem Strict.addAscending {a : α} {l : List α} (h : Strict l) : Strict (addAscending a l) := by
  induction l with
  | nil => simp [StatusBoard.addAscending, Strict]
  | cons hd tl ih =>
    have ⟨h₁, h₂⟩ := List.pairwise_cons.1 h
    rw [StatusBoard.addAscending]
    split
    next hlt =>
      refine .cons (fun b hb => ?_) h
      rcases List.mem_cons.1 hb with rfl | hb
      · exact hlt
      · exact Std.TransCmp.lt_trans hlt (h₁ b hb)
    next => exact h
    next hgt =>
      refine .cons (fun b hb => ?_) (ih h₂)
      rcases mem_addAscending.1 hb with rfl | hb
      · exact Std.OrientedCmp.gt_iff_lt.1 hgt
      · exact h₁ b hb

/-- The result is strictly ascending. -/
theorem ascending_strict (l : List α) : Strict (ascending l) := by
  induction l with
  | nil => exact .nil
  | cons _ _ ih => exact ih.addAscending

/-- Strictly ascending lists with the same members are equal. -/
theorem Strict.ext {l₁ l₂ : List α} (h₁ : Strict l₁) (h₂ : Strict l₂)
    (h : ∀ a, a ∈ l₁ ↔ a ∈ l₂) : l₁ = l₂ :=
  have nodup {l : List α} (hl : Strict l) : l.Nodup :=
    hl.imp fun {a b} hab => by rintro rfl; simp at hab
  ((List.perm_ext_iff_of_nodup (nodup h₁) (nodup h₂)).2 h).eq_of_pairwise
    (fun _ _ _ _ hab hba => by have := Std.TransCmp.lt_trans hab hba; simp at this) h₁ h₂

/-- Only the set of members matters. -/
theorem ascending_congr {l₁ l₂ : List α} (h : ∀ a, a ∈ l₁ ↔ a ∈ l₂) :
    ascending l₁ = ascending l₂ :=
  (ascending_strict l₁).ext (ascending_strict l₂) fun a => by simp [h a]

/-- A strictly ascending list is left alone. -/
theorem Strict.ascending_eq {l : List α} (h : Strict l) : ascending l = l :=
  (ascending_strict l).ext h fun _ => mem_ascending

end StatusBoard
