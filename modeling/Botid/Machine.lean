import Mathlib.Logic.Relation
import Mathlib.Data.List.Basic

/-! Runs of a deterministic machine: guards checked step by step, and observers beside the state. -/
namespace Machine

variable {σ ε γ : Type*} {step : σ → ε → σ} {ok : σ → ε → Prop} {s : σ} {e : ε} {es fs : List ε}

/-- The state after the inputs, first to last. -/
def run (step : σ → ε → σ) (s : σ) (es : List ε) : σ := es.foldl step s

/-- Every input meets the guard in the state it arrives in. -/
def Guarded (step : σ → ε → σ) (ok : σ → ε → Prop) : σ → List ε → Prop
  | _, [] => True
  | s, e :: es => ok s e ∧ Guarded step ok (step s e) es

/-- The machine with an observer that sees the state before each input. -/
def watch (step : σ → ε → σ) (see : γ → σ → ε → γ) (p : σ × γ) (e : ε) : σ × γ :=
  (step p.1 e, see p.2 p.1 e)

@[simp] theorem run_nil : run step s [] = s := rfl

@[simp] theorem run_cons : run step s (e :: es) = run step (step s e) es := rfl

theorem run_append : run step s (es ++ fs) = run step (run step s es) fs :=
  List.foldl_append

@[simp] theorem guarded_nil : Guarded step ok s [] := trivial

theorem guarded_cons :
    Guarded step ok s (e :: es) ↔ ok s e ∧ Guarded step ok (step s e) es := Iff.rfl

theorem guarded_of_forall (h : ∀ e ∈ es, ∀ s, ok s e) : Guarded step ok s es := by
  induction es generalizing s with
  | nil => trivial
  | cons e es ih =>
    exact ⟨h e List.mem_cons_self s, ih fun e' he' => h e' (List.mem_cons_of_mem e he')⟩

theorem guarded_and {ok' : σ → ε → Prop} :
    Guarded step (fun s e => ok s e ∧ ok' s e) s es ↔ Guarded step ok s es ∧ Guarded step ok' s es := by
  induction es generalizing s with
  | nil => simp
  | cons e es ih => simp only [guarded_cons, ih, and_and_and_comm]

/-- What every guarded step preserves holds at the end of a guarded run. -/
theorem run_invariant {I : σ → Prop} (hstep : ∀ s e, ok s e → I s → I (step s e))
    (hg : Guarded step ok s es) (hi : I s) : I (run step s es) := by
  induction es generalizing s with
  | nil => exact hi
  | cons e es ih => exact ih hg.2 (hstep s e hg.1 hi)

/-- And what the invariant gives of a guarded step holds at every step of the run. -/
theorem guarded_of_invariant {I : σ → Prop} {ok' : σ → ε → Prop}
    (hstep : ∀ s e, ok s e → I s → I (step s e)) (hgives : ∀ s e, ok s e → I s → ok' s e)
    (hg : Guarded step ok s es) (hi : I s) : Guarded step ok' s es := by
  induction es generalizing s with
  | nil => trivial
  | cons e es ih => exact ⟨hgives s e hg.1 hi, ih hg.2 (hstep s e hg.1 hi)⟩

/-- The unguarded case. -/
theorem run_invariant_of_step {I : σ → Prop} (hstep : ∀ s e, I s → I (step s e)) (hi : I s) :
    I (run step s es) := by
  induction es generalizing s with
  | nil => exact hi
  | cons e es ih => exact ih (hstep s e hi)

/-- What each input establishes for itself, and no other input undoes, holds of all of them. -/
theorem run_establishes {P : ε → σ → Prop} (hset : ∀ s e, P e (step s e))
    (hkeep : ∀ s e e', P e s → P e (step s e')) (he : e ∈ es) : P e (run step s es) := by
  induction es generalizing s with
  | nil => simp at he
  | cons e' es ih =>
    rcases List.mem_cons.mp he with rfl | he
    · rw [run_cons]
      exact run_invariant_of_step (I := P e) (fun s e' => hkeep s e e') (hset s e)
    · exact ih he

/-- An observer never changes the run it watches. -/
@[simp] theorem run_watch_fst {see : γ → σ → ε → γ} {g : γ} :
    (run (watch step see) (s, g) es).1 = run step s es := by
  induction es generalizing s g with
  | nil => rfl
  | cons e es ih => exact ih

/-- What the observer knows at the end of a run. -/
def observe (step : σ → ε → σ) (see : γ → σ → ε → γ) (s : σ) (g : γ) (es : List ε) : γ :=
  (run (watch step see) (s, g) es).2

/-- The invariant rule for a state and its observer together. -/
theorem observe_invariant {see : γ → σ → ε → γ} {g : γ} {I : σ → γ → Prop}
    (hstep : ∀ s g e, ok s e → I s g → I (step s e) (see g s e))
    (hg : Guarded step ok s es) (hi : I s g) : I (run step s es) (observe step see s g es) := by
  induction es generalizing s g with
  | nil => exact hi
  | cons e es ih => exact ih hg.2 (hstep s g e hg.1 hi)

/-- A property that each input keeps or ends by itself lasts through a run exactly when every input
keeps it. -/
theorem lasts_iff {I P : σ → Prop} {K : ε → Prop} (hI : ∀ s e, I s → I (step s e))
    (hP : ∀ s, ∀ e ∈ es, I s → P s → (P (step s e) ↔ K e)) (hi : I s) (hp : P s) :
    (∀ n, P (run step s (es.take n))) ↔ ∀ e ∈ es, K e := by
  induction es generalizing s with
  | nil => simpa using hp
  | cons e es ih =>
    have hhead := hP s e List.mem_cons_self hi hp
    have htail : P (step s e) →
        ((∀ n, P (run step (step s e) (es.take n))) ↔ ∀ e' ∈ es, K e') :=
      ih (fun s' e' he' => hP s' e' (List.mem_cons_of_mem e he')) (hI s e hi)
    rw [List.forall_mem_cons]
    constructor
    · intro h
      have h1 : P (step s e) := h 1
      exact ⟨hhead.mp h1, (htail h1).mp fun n => h (n + 1)⟩
    · rintro ⟨he, hes⟩ n
      cases n with
      | zero => exact hp
      | succ n => exact (htail (hhead.mpr he)).mpr hes n

section Log

variable {β : Type*} {out : σ → List β} {b : β} {k : Nat}

/-- A log that no step rewrites keeps over a whole run what it has. -/
theorem log_prefix (hlog : ∀ s e, out s <+: out (step s e)) : out s <+: out (run step s es) := by
  induction es generalizing s with
  | nil => exact List.prefix_rfl
  | cons e es ih => exact (hlog s e).trans ih

/-- Each entry of such a log was written by one of the steps. -/
theorem exists_step_of_log (hlog : ∀ s e, out s <+: out (step s e))
    (hk : (out (run step s es))[k]? = some b) (h0 : (out s).length ≤ k) :
    ∃ es₁ e es₂, es = es₁ ++ e :: es₂ ∧ (out (run step s es₁)).length ≤ k ∧
      (out (step (run step s es₁) e))[k]? = some b := by
  induction es generalizing s with
  | nil =>
    rw [run_nil, List.getElem?_eq_none h0] at hk
    cases hk
  | cons e es ih =>
    by_cases h1 : (out (step s e)).length ≤ k
    · obtain ⟨es₁, e', es₂, rfl, hbefore, hafter⟩ := ih hk h1
      exact ⟨e :: es₁, e', es₂, rfl, hbefore, hafter⟩
    · refine ⟨[], e, es, rfl, h0, ?_⟩
      obtain ⟨rest, hrest⟩ : out (step s e) <+: out (run step (step s e) es) := log_prefix hlog
      rwa [run_cons, ← hrest, List.getElem?_append_left (by omega)] at hk

end Log

end Machine
