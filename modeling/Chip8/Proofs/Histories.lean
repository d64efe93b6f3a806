import Mathlib.Data.List.Basic
import Mathlib.Data.List.Induction

/-!
# Histories of operations

A part of the machine is used by operations, one after the other, in any order.

* `transcript`: what is answered to a history of operations.
* `transcript_eq_of_view`: if a view follows every single operation, with the same answer, then the
  transcripts are the same. This is how a part refines what it stands for.
* `view_foldl_of_settles`: if every operation either settles what is seen or leaves it alone, then
  after a history the last operation that settles it has settled it.
-/

namespace Chip8

section transcripts

variable {σ τ α β : Type}

/-- What is answered to a history of operations, each performed on what the one before it left. -/
def transcript (perform : σ → α → β × σ) (state : σ) : List α → List β
  | [] => []
  | operation :: rest =>
    (perform state operation).1 :: transcript perform (perform state operation).2 rest

/-- **A view that follows every operation, with the same answer, has the same transcripts.** -/
theorem transcript_eq_of_view {perform : σ → α → β × σ} {follow : τ → α → β × τ} (view : σ → τ)
    (hview : ∀ state operation, follow (view state) operation =
      ((perform state operation).1, view (perform state operation).2))
    (state : σ) (history : List α) :
    transcript perform state history = transcript follow (view state) history := by
  induction history generalizing state with
  | nil => rfl
  | cons operation rest ih =>
    rw [transcript, transcript, hview, ih]

end transcripts

section settling

variable {σ α β : Type} {perform : σ → α → σ} {settles : α → Bool} {value : α → β}

/-- **The last operation that settles what is seen has settled it**; if none does, it is seen as it
was. -/
theorem view_foldl_of_settles (view : σ → β)
    (hview : ∀ state operation, view (perform state operation) =
      if settles operation then value operation else view state)
    (state : σ) (history : List α) :
    view (history.foldl perform state) =
      ((history.filter settles).getLast?.map value).getD (view state) := by
  induction history using List.reverseRecOn with
  | nil => rfl
  | append_singleton history operation ih =>
    rw [List.foldl_concat, hview, List.filter_append]
    by_cases hsettles : settles operation
    · rw [if_pos hsettles, List.filter_cons_of_pos hsettles, List.filter_nil,
        List.getLast?_concat, Option.map_some, Option.getD_some]
    · rw [if_neg hsettles, List.filter_cons_of_neg hsettles, List.filter_nil, List.append_nil, ih]

end settling

end Chip8
