/-! # Sums over lists

The sum of a measure over the members of a list. -/

namespace Proactor

variable {α : Type}

/-- The sum of `f` over a list. -/
def sumOf (f : α → Nat) : List α → Nat
  | [] => 0
  | a :: l => f a + sumOf f l

@[simp] theorem sumOf_nil (f : α → Nat) : sumOf f [] = 0 := rfl

@[simp] theorem sumOf_cons (f : α → Nat) (a : α) (l : List α) :
    sumOf f (a :: l) = f a + sumOf f l := rfl

@[simp] theorem sumOf_append (f : α → Nat) (l k : List α) :
    sumOf f (l ++ k) = sumOf f l + sumOf f k := by
  induction l with
  | nil => simp
  | cons a l ih => simp [ih, Nat.add_assoc]

theorem length_flatMap_eq_sumOf {β : Type} (f : α → List β) (l : List α) :
    (l.flatMap f).length = sumOf (fun a => (f a).length) l := by
  induction l with
  | nil => rfl
  | cons a l ih => simp [ih]

end Proactor
