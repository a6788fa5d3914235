import Mathlib.Data.List.Basic

/-!
# What has happened since

Histories are lists with the newest act at the end. Some acts make up for what has happened before
them.
-/

namespace PhoenixLens

/-- Something has happened since the last act that makes up for it. -/
def Since {α : Type} (mends : α → Bool) (happens : α → Prop) (acts : List α) : Prop :=
  ∃ act ∈ acts.reverse.takeWhile (!mends ·), happens act

instance {α : Type} (mends : α → Bool) (happens : α → Prop) [DecidablePred happens]
    (acts : List α) : Decidable (Since mends happens acts) :=
  inferInstanceAs (Decidable (∃ act ∈ _, happens act))

theorem not_since_nil {α : Type} {mends : α → Bool} {happens : α → Prop} :
    ¬Since mends happens [] := by
  rintro ⟨act, hAct, _⟩
  cases hAct

theorem since_concat {α : Type} {mends : α → Bool} {happens : α → Prop} {acts : List α} {act : α} :
    Since mends happens (acts ++ [act]) ↔
      mends act = false ∧ (happens act ∨ Since mends happens acts) := by
  rw [Since, List.reverse_concat, List.takeWhile_cons]
  cases mends act with
  | true => simp
  | false => simp [Since]

end PhoenixLens
