/-!
# Checking entries one after the other

Many checks of a document read a list from the front and look back at what was accepted so
far, for instance to refuse a repeated id. `accumulate` is that loop.
-/

namespace FleetCompose

variable {α β ε : Type}

/-- Read a list from the front. `step` sees what was accepted so far, and the first failure
ends the loop. -/
def accumulate (step : List β → α → Except ε β) : (accepted : List β) → List α →
    Except ε (List β)
  | accepted, [] => .ok accepted
  | accepted, entry :: rest =>
      match step accepted entry with
      | .error failure => .error failure
      | .ok image => accumulate step (accepted ++ [image]) rest

@[simp] theorem accumulate_nil (step : List β → α → Except ε β) (accepted : List β) :
    accumulate step accepted [] = .ok accepted := rfl

/-- The loop accepts a list exactly if every step accepts its entry. -/
theorem accumulate_cons_eq_ok_iff {step : List β → α → Except ε β} {accepted : List β}
    {entry : α} {rest : List α} {images : List β} :
    accumulate step accepted (entry :: rest) = .ok images ↔
      ∃ image, step accepted entry = .ok image ∧
        accumulate step (accepted ++ [image]) rest = .ok images := by
  simp only [accumulate]
  split <;> next h => simp [h]

end FleetCompose
