/-!
# Mapping with failure

`traverse` applies a function that may fail to all elements of a list. The first failure
ends it.
-/

namespace FleetCompose

variable {α β ε δ : Type}

/-- Apply a function that may fail to all elements of a list, first elements first. -/
def traverse (f : α → Except ε β) : List α → Except ε (List β)
  | [] => .ok []
  | a :: as =>
      match f a with
      | .error failure => .error failure
      | .ok b => (traverse f as).map (b :: ·)

@[simp] theorem traverse_nil (f : α → Except ε β) : traverse f [] = .ok [] := rfl

/-- A list is mapped exactly if its head is and its tail is. -/
theorem traverse_cons_eq_ok_iff {f : α → Except ε β} {a : α} {as : List α} {images : List β} :
    traverse f (a :: as) = .ok images ↔
      ∃ b bs, f a = .ok b ∧ traverse f as = .ok bs ∧ images = b :: bs := by
  simp only [traverse]
  split
  · next h => simp [h]
  · next b h =>
      cases traverse f as <;> simp [h, Except.map, eq_comm]

end FleetCompose
