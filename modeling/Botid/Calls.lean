import Botid.Machine

/-! Calls that nest: a call enters, may run others, and leaves before the call it is part of. -/
namespace Calls

open Machine

/-- What an event does to the calls in flight. -/
inductive Move (κ : Type*)
  | enter (c : κ)
  | leave (c : κ)
  | stay

variable {κ σ ε : Type*} {step : σ → ε → σ} {ok : σ → ε → Prop} {move : ε → Move κ}
  {stack : List κ} {s : σ} {es fs : List ε} {c : κ}

/-- The calls in flight, innermost first. -/
def inFlight (move : ε → Move κ) (stack : List κ) (_ : σ) (e : ε) : List κ :=
  match move e with
  | .enter c => c :: stack
  | .leave _ => stack.tail
  | .stay => stack

/-- Only the innermost call may leave. -/
def Brackets (stack : List κ) : Move κ → Prop
  | .leave c => stack.head? = some c
  | .enter _ | .stay => True

/-- A run whose calls are properly bracketed, from a moment with the given calls in flight. -/
def Nested (step : σ → ε → σ) (move : ε → Move κ) (stack : List κ) (s : σ) (es : List ε) : Prop :=
  Guarded (watch step (inFlight move)) (fun p e => Brackets p.2 (move e)) (s, stack) es

/-- The invariant rule for bracketed calls: one case for each kind of event. -/
theorem nested_invariant {I : σ → List κ → Prop}
    (hstay : ∀ s stack e, ok s e → move e = .stay → I s stack → I (step s e) stack)
    (henter : ∀ s stack e c, ok s e → move e = .enter c → I s stack → I (step s e) (c :: stack))
    (hleave : ∀ s stack e c, ok s e → move e = .leave c → I s (c :: stack) → I (step s e) stack)
    (hn : Nested step move stack s es) (hg : Guarded step ok s es) (hi : I s stack) :
    I (run step s es) (observe step (inFlight move) s stack es) := by
  induction es generalizing s stack with
  | nil => exact hi
  | cons e es ih =>
    refine ih hn.2 hg.2 ?_
    have hbrackets : Brackets stack (move e) := hn.1
    dsimp only [watch, inFlight]
    cases hmove : move e with
    | enter c => exact henter s stack e c hg.1 hmove hi
    | stay => exact hstay s stack e hg.1 hmove hi
    | leave c =>
      rw [hmove] at hbrackets
      obtain ⟨rest, rfl⟩ := List.head?_eq_some_iff.mp hbrackets
      exact hleave s rest e c hg.1 hmove hi

end Calls
