import Mathlib.Data.List.Induction

/-!
# Runs of answering machines

A machine takes an input, moves to a next state and answers. The lemmas carry
an invariant that may mention the inputs seen so far along a whole run.
-/

namespace Saml.Library

/-- A deterministic machine over states, inputs and answers. -/
structure Machine (σ ι ο : Type*) where
  step : σ → ι → σ × ο

namespace Machine

variable {σ ι ο : Type*} (m : Machine σ ι ο)

/-- The state after a sequence of inputs. -/
def after (s : σ) (inputs : List ι) : σ :=
  inputs.foldl (fun state input => (m.step state input).1) s

/-- The answer to an input that follows a sequence of inputs. -/
def answer (s : σ) (before : List ι) (input : ι) : ο :=
  (m.step (m.after s before) input).2

@[simp] theorem after_nil (s : σ) : m.after s [] = s := rfl

@[simp] theorem after_cons (s : σ) (input : ι) (rest : List ι) :
    m.after s (input :: rest) = m.after (m.step s input).1 rest := rfl

theorem after_append (s : σ) (first second : List ι) :
    m.after s (first ++ second) = m.after (m.after s first) second := by
  simp [after]

@[simp] theorem after_concat (s : σ) (before : List ι) (input : ι) :
    m.after s (before ++ [input]) = (m.step (m.after s before) input).1 := by
  simp [after]

/-- An invariant over the state and the inputs so far holds after every run
whose prefixes are admissible. -/
theorem after_invariant {Ok : List ι → Prop} {Inv : List ι → σ → Prop} {s : σ}
    (prefixOk : ∀ before input, Ok (before ++ [input]) → Ok before)
    (init : Inv [] s)
    (step : ∀ before state input, Ok (before ++ [input]) → Inv before state →
      Inv (before ++ [input]) (m.step state input).1)
    (inputs : List ι) (ok : Ok inputs) : Inv inputs (m.after s inputs) := by
  induction inputs using List.reverseRecOn with
  | nil => exact init
  | append_singleton before input ih =>
      rw [after_concat]
      exact step before _ input ok (ih (prefixOk before input ok))

end Machine

end Saml.Library
